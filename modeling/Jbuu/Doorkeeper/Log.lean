/-
# Doorkeeper.Log — one event as one line of JSON

`otp-doorkeeper/src/log.rs` up to the write: the clock reading as RFC 3339, the escapes, and
the line that `event` builds. The escapes are undone by a reader of JSON (`escapes`), the
clock reading needs none (`plain_rfc3339Millis`), and so a line is read back as what was
logged (`readLine_line`); within it there is no other end of line (`line_whole`).
-/
import Jbuu.Library.Json
import Jbuu.Library.Lines
import Jbuu.Library.BigEndian

namespace Jbuu.Doorkeeper

set_option autoImplicit false

open Jbuu.Library.BigEndian (Bytes)
open Jbuu.Library
open Jbuu.Library.Json (Text Scalar)

/-! ## The clock reading -/

/-- `civil_from_days`. -/
def civilFromDays (z : Int) : Int × Nat × Nat :=
  let z := z + 719468
  let era := (if z ≥ 0 then z else z - 146096).tdiv 146097
  let doe := (z - era * 146097).toNat
  let yoe := (doe - doe / 1460 + doe / 36524 - doe / 146096) / 365
  let y := (yoe : Int) + era * 400
  let doy := doe - (365 * yoe + yoe / 4 - yoe / 100)
  let mp := (5 * doy + 2) / 153
  let dd := doy - (153 * mp + 2) / 5 + 1
  let m := if mp < 10 then mp + 3 else mp - 9
  (if m ≤ 2 then y + 1 else y, m, dd)

/-- A number in decimal, filled up with zeros. -/
def padded (width n : Nat) : Text :=
  List.replicate (width - (Nat.toDigits 10 n).length) '0' ++ Nat.toDigits 10 n

/-- The same with a sign, which counts. -/
def paddedInt (width : Nat) (n : Int) : Text :=
  if n < 0 then '-' :: padded (width - 1) n.natAbs else padded width n.natAbs

/-- The time since the epoch: `SystemTime::now`, and zero where the clock is before it. -/
structure Clock where
  secs : Nat
  millis : Nat
  deriving DecidableEq, Repr

/-- `now_rfc3339_millis`. -/
def rfc3339Millis (now : Clock) : Text :=
  let days : Int := now.secs / 86400
  let sod := now.secs % 86400
  let (y, m, dd) := civilFromDays days
  paddedInt 4 y ++ ('-' :: padded 2 m ++ ('-' :: padded 2 dd ++ ('T' :: padded 2 (sod / 3600) ++
    (':' :: padded 2 (sod % 3600 / 60) ++ (':' :: padded 2 (sod % 60) ++
      ('.' :: padded 3 now.millis ++ ['Z']))))))

/-! ## The line -/

inductive Field where
  | str (s : Text)
  | u64 (n : UInt64)
  | bool (b : Bool)
  | null
  deriving DecidableEq, Repr

/-- The arguments of `event`, and what the clock said. -/
structure Event where
  now : Clock
  level : Text
  kind : Text
  fields : List (Text × Field)
  deriving DecidableEq, Repr

/-- The four digits of `\u{code:04x}`. -/
def hex4 (code : Nat) : Text :=
  [(code / 4096 % 16).digitChar, (code / 256 % 16).digitChar, (code / 16 % 16).digitChar,
    (code % 16).digitChar]

/-- One character of `escape_into`. -/
def escapeChar (c : Char) : Text :=
  if c = '"' then ['\\', '"']
  else if c = '\\' then ['\\', '\\']
  else if c = '\n' then ['\\', 'n']
  else if c = '\r' then ['\\', 'r']
  else if c = '\t' then ['\\', 't']
  else if c = '\x08' then ['\\', 'b']
  else if c = '\x0c' then ['\\', 'f']
  else if c.toNat < 0x20 then '\\' :: 'u' :: hex4 c.toNat
  else [c]

/-- `escape_into`: what it adds. -/
def escapeInto (s : Text) : Text := s.flatMap escapeChar

def Field.text : Field → Text
  | .str s => '"' :: (escapeInto s ++ ['"'])
  | .u64 n => Nat.toDigits 10 n.toNat
  | .bool b => if b then "true".toList else "false".toList
  | .null => "null".toList

namespace Event

/-- The line of an event, as `event` builds it, up to the end of line. -/
def line (e : Event) : Text :=
  "\x7b\"ts\":\"".toList ++ (rfc3339Millis e.now ++ ("\",\"level\":\"".toList ++ (escapeInto e.level ++
    ("\",\"event\":\"".toList ++ (escapeInto e.kind ++ ('"' ::
      (e.fields.flatMap (fun f => ',' :: '"' :: (escapeInto f.1 ++ ('"' :: ':' :: f.2.text))) ++
        ['\x7d'])))))))

/-- The bytes of the line. -/
def json (e : Event) : Bytes := e.line.flatMap String.utf8EncodeChar

/-- The end of line. -/
def newline : UInt8 := 10

/-- What is handed to `write`. -/
def bytes (e : Event) : Bytes := e.json ++ [newline]

end Event

def Field.scalar : Field → Scalar
  | .str s => .string s
  | .u64 n => .number n.toNat
  | .bool b => .bool b
  | .null => .null

/-- What the line of an event says, member by member. -/
def Event.members (e : Event) : List (Text × Scalar) :=
  ("ts".toList, .string (rfc3339Millis e.now)) :: ("level".toList, .string e.level) ::
    ("event".toList, .string e.kind) :: e.fields.map fun f => (f.1, f.2.scalar)

/-! ### The events -/

namespace Event

def info (now : Clock) (kind : String) (fields : List (String × Field)) : Event where
  now := now
  level := "info".toList
  kind := kind.toList
  fields := fields.map fun f => (f.1.toList, f.2)

def listenStart (now : Clock) (listen upstream warnMode : Text) (maxConns pid : UInt64)
    (version : Text) : Event :=
  info now "listen_start" [("listen", .str listen), ("upstream", .str upstream),
    ("warn_mode", .str warnMode), ("max_conns", .u64 maxConns), ("pid", .u64 pid),
    ("version", .str version)]

def connAccept (now : Clock) (connId : UInt64) (srcIp : Text) (srcPort : UInt16) (family : Text) : Event :=
  info now "conn_accept" [("conn_id", .u64 connId), ("src_ip", .str srcIp),
    ("src_port", .u64 srcPort.toUInt64), ("family", .str family)]

def warnSent (now : Clock) (connId bytes : UInt64) : Event :=
  info now "warn_sent" [("conn_id", .u64 connId), ("bytes", .u64 bytes)]

def upstreamConnect (now : Clock) (connId : UInt64) (ok : Bool) (elapsedMs : UInt64)
    (err : Option Text) : Event :=
  info now "upstream_connect" ([("conn_id", .u64 connId), ("ok", .bool ok),
    ("elapsed_ms", .u64 elapsedMs)] ++ err.toList.map fun e => ("err", .str e))

def clientVersion (now : Clock) (connId : UInt64) (version : Option Text) (truncated : Bool) : Event :=
  info now "client_version" [("conn_id", .u64 connId),
    ("version", match version with
      | some v => .str v
      | none => .null),
    ("truncated", .bool truncated)]

def connClose (now : Clock) (connId : UInt64) (reason : String) (bytesC2s bytesS2c durationMs : UInt64) :
    Event :=
  info now "conn_close" [("conn_id", .u64 connId), ("reason", .str reason.toList),
    ("bytes_c2s", .u64 bytesC2s), ("bytes_s2c", .u64 bytesS2c), ("duration_ms", .u64 durationMs)]

def connRefusedOverLimit (now : Clock) (srcIp : Text) (srcPort : UInt16) (curConns : UInt64) : Event :=
  { info now "conn_refused_over_limit" [("src_ip", .str srcIp), ("src_port", .u64 srcPort.toUInt64),
      ("cur_conns", .u64 curConns)] with level := "warn".toList }

def logReopened (now : Clock) (path : Text) : Event :=
  info now "log_reopened" [("path", .str path)]

end Event

/-! ## The line is read back -/

/-- Neither a quote nor a backslash nor a control character. -/
def Plain (c : Char) : Prop := c ≠ '"' ∧ c ≠ '\\' ∧ 0x20 ≤ c.toNat

instance : DecidablePred Plain := fun c =>
  inferInstanceAs (Decidable (c ≠ '"' ∧ c ≠ '\\' ∧ 0x20 ≤ c.toNat))

theorem plain_of_all {s : Text} (all : s.all (fun c => Decidable.decide (Plain c)) = true) :
    ∀ c ∈ s, Plain c := by
  intro c mem
  exact of_decide_eq_true (List.all_eq_true.mp all c mem)

theorem escapeChar_plain {c : Char} (plain : Plain c) : escapeChar c = [c] := by
  obtain ⟨quote, backslash, high⟩ := plain
  have other : ∀ d : Char, d.toNat < 0x20 → c ≠ d := by
    intro d low same
    subst same
    omega
  unfold escapeChar
  rw [if_neg quote, if_neg backslash, if_neg (other '\n' (by decide)), if_neg (other '\r' (by decide)),
    if_neg (other '\t' (by decide)), if_neg (other '\x08' (by decide)),
    if_neg (other '\x0c' (by decide)), if_neg (by omega)]

theorem readString_plain {c : Char} (plain : Plain c) (rest : Text) :
    Json.readString (c :: rest) = Json.push c (Json.readString rest) := by
  obtain ⟨quote, backslash, high⟩ := plain
  have low : ¬c < ' ' := by
    intro less
    have : c.toNat < 32 := less
    omega
  rw [Json.readString.eq_def]
  split <;> simp_all

/-- A control character comes back from its four digits. -/
theorem unicode_hex4 {c : Char} (low : c.toNat < 0x20) :
    Json.unicode '0' '0' (c.toNat / 16 % 16).digitChar (c.toNat % 16).digitChar = some c := by
  have all : ∀ n < 0x20, Json.unicode '0' '0' (n / 16 % 16).digitChar (n % 16).digitChar =
      some (Char.ofNat n) := by decide
  rw [all c.toNat low, Char.ofNat_toNat]

theorem escapes : Json.Escapes escapeChar := by
  intro c rest
  unfold escapeChar
  iterate 7
    split
    · subst_vars
      rfl
  split
  · rename_i low
    have high : c.toNat / 4096 % 16 = 0 ∧ c.toNat / 256 % 16 = 0 := by omega
    simp only [hex4, high.1, high.2, List.cons_append, List.nil_append]
    exact Json.readString_unicode (unicode_hex4 low) rest
  · rename_i quote backslash _ _ _ _ _ low
    exact readString_plain ⟨quote, backslash, by omega⟩ rest

theorem plain_digit {c : Char} (digit : c.isDigit = true) : Plain c := by
  have low : 48 ≤ c.toNat := (Char.isDigit_iff_toNat.mp digit).1
  have high : c.toNat ≤ 57 := (Char.isDigit_iff_toNat.mp digit).2
  refine ⟨?_, ?_, by omega⟩
  · rintro rfl
    exact absurd low (by decide)
  · rintro rfl
    exact absurd high (by decide)

theorem plain_padded {width n : Nat} : ∀ c ∈ padded width n, Plain c := by
  intro c mem
  apply plain_digit
  rcases List.mem_append.mp mem with zero | digit
  · rw [List.eq_of_mem_replicate zero]
    rfl
  · exact Nat.isDigit_of_mem_toDigits (by omega) (by omega) digit

theorem plain_paddedInt {width : Nat} {n : Int} : ∀ c ∈ paddedInt width n, Plain c := by
  unfold paddedInt
  split
  · rintro c (_ | ⟨_, mem⟩)
    · decide
    · exact plain_padded c mem
  · exact plain_padded

/-- A clock reading needs no escapes. -/
theorem plain_rfc3339Millis (now : Clock) : ∀ c ∈ rfc3339Millis now, Plain c := by
  have mark : ∀ c ∈ ['-', 'T', ':', '.', 'Z'], Plain c := plain_of_all (by decide)
  intro c mem
  simp only [rfc3339Millis, List.mem_append, List.mem_cons, List.not_mem_nil, or_false] at mem
  rcases mem with mem | (rfl | mem) | (rfl | mem) | (rfl | mem) | (rfl | mem) | (rfl | mem) |
    (rfl | mem) | rfl
  · exact plain_paddedInt c mem
  all_goals first | exact plain_padded c mem | exact mark _ (by decide)

theorem escapeInto_plain {s : Text} (plain : ∀ c ∈ s, Plain c) : escapeInto s = s := by
  unfold escapeInto
  induction s with
  | nil => rfl
  | cons c s ih =>
      rw [List.flatMap_cons, escapeChar_plain (plain c (List.mem_cons_self ..)),
        ih fun d mem => plain d (List.mem_cons_of_mem _ mem)]
      rfl

theorem Field.text_eq (f : Field) : f.text = Json.scalar escapeChar f.scalar := by
  cases f with
  | str s => rfl
  | u64 n => rfl
  | bool b => cases b <;> rfl
  | null => rfl

theorem quoted_plain {s : Text} (plain : ∀ c ∈ s, Plain c) :
    Json.quoted escapeChar s = '"' :: (s ++ ['"']) :=
  congrArg (fun text => '"' :: (text ++ ['"'])) (escapeInto_plain plain)

/-- The fields, each behind a comma. -/
theorem fields_eq (fields : List (Text × Field)) :
    fields.flatMap (fun f => ',' :: '"' :: (escapeInto f.1 ++ ('"' :: ':' :: f.2.text))) =
      Json.more escapeChar (fields.map fun f => (f.1, f.2.scalar)) := by
  induction fields with
  | nil => rfl
  | cons f fields ih =>
      rw [List.flatMap_cons, ih, Field.text_eq, Json.more, Json.more, List.map_cons, List.flatMap_cons]
      simp only [Json.member, Json.quoted, escapeInto, List.cons_append, List.append_assoc,
        List.nil_append]

/-- The same text, cut as `event` cuts it and member by member. -/
theorem recut (ts level kind now l k fields : Text) :
    '\x7b' :: '"' :: (ts ++ ['"', ':', '"']) ++ (now ++
      ('"' :: ',' :: '"' :: (level ++ ['"', ':', '"']) ++ (l ++
        ('"' :: ',' :: '"' :: (kind ++ ['"', ':', '"']) ++ (k ++ '"' :: (fields ++ ['\x7d'])))))) =
    '\x7b' :: ('"' :: (ts ++ ['"']) ++ ':' :: '"' :: (now ++ ['"']) ++
      (',' :: ('"' :: (level ++ ['"']) ++ ':' :: '"' :: (l ++ ['"']) ++
        ',' :: ('"' :: (kind ++ ['"']) ++ ':' :: '"' :: (k ++ ['"']) ++ fields)) ++ ['\x7d'])) := by
  simp

/-- The line is the object of its members. -/
theorem Event.line_eq (e : Event) :
    e.line = Json.object escapeChar ("ts".toList, .string (rfc3339Millis e.now)) e.members.tail := by
  have ts : "\x7b\"ts\":\"".toList = '\x7b' :: '"' :: ("ts".toList ++ ['"', ':', '"']) := by decide
  have level : "\",\"level\":\"".toList = '"' :: ',' :: '"' :: ("level".toList ++ ['"', ':', '"']) := by
    decide
  have kind : "\",\"event\":\"".toList = '"' :: ',' :: '"' :: ("event".toList ++ ['"', ':', '"']) := by
    decide
  have quotedTs := quoted_plain (plain_of_all (show "ts".toList.all _ = true by decide))
  have quotedLevel := quoted_plain (plain_of_all (show "level".toList.all _ = true by decide))
  have quotedKind := quoted_plain (plain_of_all (show "event".toList.all _ = true by decide))
  have quotedNow := quoted_plain (plain_rfc3339Millis e.now)
  unfold Event.line
  rw [fields_eq, ts, level, kind, Event.members, List.tail_cons, Json.object, Json.more_cons,
    Json.more_cons]
  simp only [Json.member, Json.scalar, quotedTs, quotedLevel, quotedKind, quotedNow]
  exact recut _ _ _ _ _ _ _

/-- A reader of lines: UTF-8, and then JSON. -/
def readLine (line : Bytes) : Option (List (Text × Scalar)) :=
  line.toByteArray.utf8Decode?.bind fun text => Json.readObject text.toList

/-- **What was logged is read back**, whatever the strings in it. -/
theorem readLine_json (e : Event) : readLine e.json = some e.members := by
  have text : e.json.toByteArray.utf8Decode? = some e.line.toArray := List.utf8Decode?_utf8Encode
  have read := Json.readObject_object escapes ("ts".toList, .string (rfc3339Millis e.now)) e.members.tail
  rw [readLine, text, Option.bind_some, e.line_eq, read]
  rfl

/-! ## One end of line -/

theorem newline_of_mem_utf8 {c : Char} (mem : Event.newline ∈ String.utf8EncodeChar c) : c = '\n' := by
  have byte : ∀ n, 0x80 ≤ n → n < 0x100 → Event.newline ≠ UInt8.ofNat n := by
    intro n low high same
    have value := congrArg UInt8.toNat same
    rw [UInt8.toNat_ofNat', Nat.mod_eq_of_lt high] at value
    have ten : Event.newline.toNat = 10 := rfl
    omega
  unfold String.utf8EncodeChar at mem
  dsimp only at mem
  split at mem
  · rename_i one
    have same := congrArg UInt8.toNat (List.mem_singleton.mp mem)
    rw [UInt8.toNat_ofNat', Nat.mod_eq_of_lt (by omega)] at same
    apply Char.ext
    apply UInt32.toNat_inj.mp
    exact same.symm
  split at mem
  · simp only [List.mem_cons, List.not_mem_nil, or_false] at mem
    rcases mem with same | same <;> exact absurd same (byte _ (by omega) (by omega))
  split at mem
  · simp only [List.mem_cons, List.not_mem_nil, or_false] at mem
    rcases mem with same | same | same <;> exact absurd same (byte _ (by omega) (by omega))
  · simp only [List.mem_cons, List.not_mem_nil, or_false] at mem
    rcases mem with same | same | same | same <;> exact absurd same (byte _ (by omega) (by omega))

theorem newline_escapeChar (c : Char) : '\n' ∉ escapeChar c := by
  have digit : ∀ n < 16, '\n' ≠ n.digitChar := by decide
  unfold escapeChar
  iterate 7
    split
    · decide
  split
  · simp only [hex4, List.mem_cons, List.not_mem_nil, or_false, not_or]
    exact ⟨by decide, by decide, digit _ (by omega), digit _ (by omega), digit _ (by omega),
      digit _ (by omega)⟩
  · rename_i _ _ other _ _ _ _ _
    rw [List.mem_singleton]
    exact Ne.symm other

theorem newline_escapeInto (s : Text) : '\n' ∉ escapeInto s := by
  intro mem
  obtain ⟨c, -, here⟩ := List.mem_flatMap.mp mem
  exact newline_escapeChar c here

theorem newline_fieldText (f : Field) : '\n' ∉ f.text := by
  cases f with
  | str s => simp [Field.text, newline_escapeInto]
  | u64 n =>
      intro mem
      exact absurd (Nat.isDigit_of_mem_toDigits (by omega) (by omega) mem) (by decide)
  | bool b => cases b <;> decide
  | null => decide

/-- A line has no end of line inside. -/
theorem Event.newline_line (e : Event) : '\n' ∉ e.line := by
  have ts : '\n' ∉ "\x7b\"ts\":\"".toList := by decide
  have level : '\n' ∉ "\",\"level\":\"".toList := by decide
  have kind : '\n' ∉ "\",\"event\":\"".toList := by decide
  have now : '\n' ∉ rfc3339Millis e.now := by
    intro mem
    exact absurd (plain_rfc3339Millis e.now _ mem) (by decide)
  have field : ∀ f : Text × Field, '\n' ∉ ',' :: '"' :: (escapeInto f.1 ++ ('"' :: ':' :: f.2.text)) := by
    intro f
    simp [newline_escapeInto, newline_fieldText]
  have fields : '\n' ∉ '"' :: (e.fields.flatMap
      (fun f => ',' :: '"' :: (escapeInto f.1 ++ ('"' :: ':' :: f.2.text))) ++ ['\x7d']) := by
    intro mem
    rcases List.mem_append.mp (List.mem_of_ne_of_mem (by decide) mem) with inner | last
    · obtain ⟨f, -, here⟩ := List.mem_flatMap.mp inner
      exact field f here
    · exact absurd last (by decide)
  unfold Event.line
  rw [List.mem_append, List.mem_append, List.mem_append, List.mem_append, List.mem_append,
    List.mem_append]
  exact not_or.mpr ⟨ts, not_or.mpr ⟨now, not_or.mpr ⟨level, not_or.mpr ⟨newline_escapeInto _,
    not_or.mpr ⟨kind, not_or.mpr ⟨newline_escapeInto _, fields⟩⟩⟩⟩⟩⟩

theorem Event.json_whole (e : Event) : newline ∉ e.json := by
  intro mem
  obtain ⟨c, here, byte⟩ := List.mem_flatMap.mp mem
  rw [newline_of_mem_utf8 byte] at here
  exact e.newline_line here

end Jbuu.Doorkeeper
