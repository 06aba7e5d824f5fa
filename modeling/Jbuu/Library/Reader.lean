/-
# Library.Reader — fields read off a byte string from the front

A `Reader` consumes bytes from the front of what is left and stops at its first error.
`exactly n` takes a field of `n` bytes, `done` refuses what was not consumed. On an
encoding, the field first and then the rest, a read gives the field back
(`run_exactly_append`), and what it leaves is read on (`run_bind_ok`): the round trip of
a format is these two, once per field.

The `_eq_ok` lemmas say of each reader which byte strings it succeeds on, and with what:
with them `simp` turns a reader into the encoding it inverts, in both directions at once.
-/
import Jbuu.Library.BigEndian

namespace Jbuu.Library

set_option autoImplicit false

open Jbuu.Library.BigEndian (Bytes Exactly take_append drop_append)

abbrev Reader (ε α : Type) := StateT Bytes (Except ε) α

namespace Reader

variable {ε α : Type}

/-- The next `n` bytes; `short` where fewer are left. -/
def exactly (short : ε) (n : Nat) : Reader ε (Exactly n) := fun buf =>
  if fits : n ≤ buf.length then .ok (⟨buf.take n, by simpa using fits⟩, buf.drop n)
  else .error short

/-- Nothing is left. -/
def done (trailing : ε) : Reader ε Unit := fun buf =>
  match buf with
  | [] => .ok ((), [])
  | _ :: _ => .error trailing

/-- `if c { return Err(e) }`. -/
def failIf (c : Prop) [Decidable c] (e : ε) : Reader ε Unit :=
  if c then throw e else pure ()

/-- `ok_or(e)`. -/
def okOr (e : ε) : Option α → Reader ε α
  | some a => pure a
  | none => throw e

/-- Read the whole byte string. -/
def parse (r : Reader ε α) (buf : Bytes) : Except ε α := (r.run buf).map (·.1)

/-- What a read leaves is read on. -/
theorem run_bind_ok {β : Type} {r : Reader ε α} {f : α → Reader ε β} {buf rest : Bytes} {a : α}
    (read : r.run buf = .ok (a, rest)) : (r >>= f).run buf = (f a).run rest := by
  rw [StateT.run_bind, read]
  rfl

theorem run_map_ok {β : Type} {r : Reader ε α} {f : α → β} {buf rest : Bytes} {a : α}
    (read : r.run buf = .ok (a, rest)) :
    (r >>= fun a => pure (f a)).run buf = .ok (f a, rest) := by
  rw [run_bind_ok read]
  rfl

theorem run_exactly_append {short : ε} {n : Nat} (field : Exactly n) (rest : Bytes) :
    (exactly short n).run (field.val ++ rest) = .ok (field, rest) := by
  have fits : n ≤ (field.val ++ rest).length := by simp
  show dite _ _ _ = _
  rw [dif_pos fits]
  congr
  · exact take_append field.property
  · exact drop_append field.property

theorem run_failIf_not {c : Prop} [Decidable c] {e : ε} {buf : Bytes} (not : ¬c) :
    (failIf c e).run buf = .ok ((), buf) := by
  rw [failIf, if_neg not]
  rfl

theorem run_okOr_some {e : ε} {value : Option α} {a : α} {buf : Bytes} (is : value = some a) :
    (okOr e value).run buf = .ok (a, buf) := by
  rw [is]
  rfl

/-! ## What a successful read has seen -/

theorem run_bind_eq_ok {β : Type} {r : Reader ε α} {f : α → Reader ε β} {buf rest : Bytes} {b : β} :
    (r >>= f).run buf = .ok (b, rest) ↔
      ∃ a mid, r.run buf = .ok (a, mid) ∧ (f a).run mid = .ok (b, rest) := by
  rw [StateT.run_bind]
  cases r.run buf with
  | error e =>
      constructor
      · nofun
      · rintro ⟨a, mid, read, -⟩
        cases read
  | ok read =>
      obtain ⟨a, mid⟩ := read
      constructor
      · intro next
        exact ⟨a, mid, rfl, next⟩
      · rintro ⟨a', mid', read, next⟩
        cases read
        exact next

theorem run_pure_eq_ok {a b : α} {buf rest : Bytes} :
    (pure a : Reader ε α).run buf = .ok (b, rest) ↔ b = a ∧ rest = buf := by
  constructor
  · intro read
    cases read
    exact ⟨rfl, rfl⟩
  · rintro ⟨rfl, rfl⟩
    rfl

theorem run_exactly_eq_ok {short : ε} {n : Nat} {buf rest : Bytes} {field : Exactly n} :
    (exactly short n).run buf = .ok (field, rest) ↔ buf = field.val ++ rest := by
  constructor
  · intro read
    change dite _ _ _ = _ at read
    split at read
    · cases read
      exact (List.take_append_drop n buf).symm
    · cases read
  · rintro rfl
    exact run_exactly_append field rest

theorem run_done_eq_ok {trailing : ε} {buf rest : Bytes} {u : Unit} :
    (done trailing).run buf = .ok (u, rest) ↔ buf = [] ∧ rest = [] := by
  constructor
  · intro read
    cases buf with
    | nil =>
        cases read
        exact ⟨rfl, rfl⟩
    | cons b buf => cases read
  · rintro ⟨rfl, rfl⟩
    rfl

theorem run_failIf_eq_ok {c : Prop} [Decidable c] {e : ε} {buf rest : Bytes} {u : Unit} :
    (failIf c e).run buf = .ok (u, rest) ↔ ¬c ∧ rest = buf := by
  unfold failIf
  split
  · constructor
    · nofun
    · rintro ⟨no, -⟩
      contradiction
  · rw [run_pure_eq_ok]
    simp [*]

theorem run_okOr_eq_ok {e : ε} {value : Option α} {a : α} {buf rest : Bytes} :
    (okOr e value).run buf = .ok (a, rest) ↔ value = some a ∧ rest = buf := by
  cases value with
  | none => exact ⟨nofun, by simp⟩
  | some b =>
      rw [okOr, run_pure_eq_ok]
      simp [eq_comm]

theorem parse_eq_ok {r : Reader ε α} {buf : Bytes} {a : α} :
    r.parse buf = .ok a ↔ ∃ rest, r.run buf = .ok (a, rest) := by
  unfold parse
  cases r.run buf with
  | error e =>
      constructor
      · nofun
      · rintro ⟨rest, read⟩
        cases read
  | ok read =>
      obtain ⟨b, rest⟩ := read
      constructor
      · intro same
        cases same
        exact ⟨rest, rfl⟩
      · rintro ⟨rest', same⟩
        cases same
        rfl

end Reader

end Jbuu.Library
