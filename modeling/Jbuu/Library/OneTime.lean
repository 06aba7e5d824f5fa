/-
# Library.OneTime — material that may be used once, by address

A `Span` is a run of consecutive addresses. One-time material is counted as a multiset:
what was spent and what is still held never exceed what was granted (`Conserved`). A use
moves addresses from held to spent, a loss drops some, a grant adds to both sides. Where
no address was granted twice, none was spent twice (`Conserved.once`).
-/
import Mathlib.Data.Multiset.Range
import Mathlib.Algebra.Order.Group.Multiset
import Mathlib.Algebra.BigOperators.Group.List.Defs

namespace Jbuu.Library

set_option autoImplicit false

/-! ## Spans -/

/-- `length` addresses from `first` on. -/
structure Span where
  first : Nat
  length : Nat
  deriving DecidableEq, Repr

namespace Span

def empty : Span := ⟨0, 0⟩

def addresses (s : Span) : Multiset Nat := (Multiset.range s.length).map (s.first + ·)

/-- All of `inner` lies in `outer`. -/
def Within (inner outer : Span) : Prop :=
  inner.length = 0 ∨
    outer.first ≤ inner.first ∧ inner.first + inner.length ≤ outer.first + outer.length

/-- One span ends before the other begins. -/
def Apart (s t : Span) : Prop := s.first + s.length ≤ t.first ∨ t.first + t.length ≤ s.first

@[simp] theorem addresses_empty : empty.addresses = 0 := rfl

theorem mem_addresses {s : Span} {a : Nat} :
    a ∈ s.addresses ↔ s.first ≤ a ∧ a < s.first + s.length := by
  simp only [addresses, Multiset.mem_map, Multiset.mem_range]
  constructor
  · rintro ⟨i, inside, rfl⟩
    omega
  · intro inside
    exact ⟨a - s.first, by omega, by omega⟩

theorem nodup_addresses (s : Span) : s.addresses.Nodup :=
  (Multiset.nodup_range s.length).map fun i j same => by omega

/-- A span is its front and what follows it. -/
theorem addresses_add (first m n : Nat) :
    (⟨first, m + n⟩ : Span).addresses =
      (⟨first, m⟩ : Span).addresses + (⟨first + m, n⟩ : Span).addresses := by
  simp only [addresses, Multiset.range_add, Multiset.map_add, Multiset.map_map]
  congr 2
  funext i
  simp only [Function.comp_apply]
  omega

theorem Within.mem {inner outer : Span} (within : inner.Within outer) {a : Nat} (inside : a ∈ inner.addresses) :
    a ∈ outer.addresses := by
  rw [mem_addresses] at inside ⊢
  rcases within with none_ | bounds <;> omega

theorem Apart.symm {s t : Span} (apart : s.Apart t) : t.Apart s := Or.symm apart

theorem Apart.disjoint {s t : Span} (apart : s.Apart t) : Disjoint s.addresses t.addresses := by
  rw [Multiset.disjoint_left]
  intro a inS inT
  have left := mem_addresses.mp inS
  have right := mem_addresses.mp inT
  rcases apart with before | after <;> omega

theorem mem_sum {spans : List Span} {a : Nat} :
    a ∈ (spans.map addresses).sum ↔ ∃ s ∈ spans, a ∈ s.addresses := by
  induction spans with
  | nil => simp
  | cons s rest ih => simp [ih]

/-- Spans that are pairwise apart have no address in common. -/
theorem nodup_sum {spans : List Span} (apart : spans.Pairwise Apart) :
    (spans.map addresses).sum.Nodup := by
  induction spans with
  | nil => exact Multiset.nodup_zero
  | cons s rest ih =>
      obtain ⟨first, others⟩ := List.pairwise_cons.mp apart
      rw [List.map_cons, List.sum_cons, Multiset.nodup_add]
      refine ⟨nodup_addresses s, ih others, ?_⟩
      rw [Multiset.disjoint_left]
      intro a inS inRest
      obtain ⟨t, there, inT⟩ := mem_sum.mp inRest
      exact Multiset.disjoint_left.mp (first t there).disjoint inS inT

end Span

/-! ## Parts -/

section Parts

variable {α β : Type} {part : β → Multiset α} {whole : List β}

theorem mem_sum_of_mem {b : β} (mem : b ∈ whole) {a : α} (inside : a ∈ part b) :
    a ∈ (whole.map part).sum := by
  induction whole with
  | nil => exact absurd mem List.not_mem_nil
  | cons c rest ih =>
      rw [List.map_cons, List.sum_cons, Multiset.mem_add]
      rcases List.mem_cons.mp mem with rfl | later
      · exact .inl inside
      · exact .inr (ih later)

/-- Two parts of what was spent once have nothing in common. -/
theorem disjoint_parts (once : (whole.map part).sum.Nodup) {b c : β} (memB : b ∈ whole) (memC : c ∈ whole)
    (other : b ≠ c) : Disjoint (part b) (part c) := by
  induction whole with
  | nil => exact absurd memB List.not_mem_nil
  | cons x rest ih =>
      rw [List.map_cons, List.sum_cons, Multiset.nodup_add] at once
      obtain ⟨-, later, apart⟩ := once
      rcases List.mem_cons.mp memB with rfl | inB <;> rcases List.mem_cons.mp memC with rfl | inC
      · exact absurd rfl other
      · exact Multiset.disjoint_left.mpr fun inside there =>
          Multiset.disjoint_left.mp apart inside (mem_sum_of_mem inC there)
      · exact Multiset.disjoint_left.mpr fun there inside =>
          Multiset.disjoint_left.mp apart inside (mem_sum_of_mem inB there)
      · exact ih later inB inC

theorem nodup_part (once : (whole.map part).sum.Nodup) {b : β} (mem : b ∈ whole) : (part b).Nodup := by
  induction whole with
  | nil => exact absurd mem List.not_mem_nil
  | cons x rest ih =>
      rw [List.map_cons, List.sum_cons, Multiset.nodup_add] at once
      rcases List.mem_cons.mp mem with rfl | later
      · exact once.1
      · exact ih once.2.1 later

end Parts
/-! ## Conservation -/

section Conserved

variable {α : Type}

/-- What was spent and what is held never exceed what was granted. -/
def Conserved (spent held granted : Multiset α) : Prop := spent + held ≤ granted

variable {spent held held' granted : Multiset α}

/-- Held material is used, or lost. -/
theorem Conserved.spend (conserved : Conserved spent held granted) {used : Multiset α}
    (moved : used + held' ≤ held) : Conserved (spent + used) held' granted := by
  have grown : spent + used + held' ≤ spent + held := by
    rw [add_assoc]
    exact Multiset.add_le_add_iff_left.mpr moved
  exact grown.trans conserved

theorem Conserved.grant (conserved : Conserved spent held granted) (new : Multiset α) :
    Conserved spent (held + new) (granted + new) := by
  unfold Conserved
  rw [← add_assoc]
  exact Multiset.add_le_add_iff_right.mpr conserved

/-- **Nothing is spent twice** that was not granted twice. -/
theorem Conserved.once (conserved : Conserved spent held granted) (nodup : granted.Nodup) :
    spent.Nodup :=
  Multiset.nodup_of_le ((Multiset.le_add_right spent held).trans conserved) nodup

end Conserved

end Jbuu.Library
