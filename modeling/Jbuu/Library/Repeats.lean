/-
# Library.Repeats — the elements of a list that occurred before

`repeats xs` are the indices of `xs` whose element stands further in front already, each after
the first index of that element; `firstOf xs` is the table of these first indices and `places x xs`
are the indices of `x`. All grow by one element at a time (`repeats_concat`, `places_concat`), which
is how a single pass finds them. There are as
many repeats as the list has elements more than distinct ones (`length_repeats`), and a map that
is injective on the list keeps them (`repeats_map`).
-/
import Mathlib.Data.Finset.Card
import Mathlib.Data.List.Basic
import Mathlib.Algebra.BigOperators.Group.Finset.Basic
import Mathlib.Tactic.Ring

namespace Jbuu.Library

set_option autoImplicit false

variable {α β : Type} [DecidableEq α] [DecidableEq β]

def repeats (xs : List α) : List (Nat × Nat) :=
  xs.zipIdx.filterMap fun (x, i) => if xs.idxOf x < i then some (xs.idxOf x, i) else none

/-- The table of first indices. -/
def firstOf (xs : List α) (x : α) : Option Nat := if x ∈ xs then some (xs.idxOf x) else none

def places (x : α) (xs : List α) : List Nat := xs.zipIdx.filterMap fun (y, i) => if y = x then some i else none

@[simp] theorem repeats_nil : repeats ([] : List α) = [] := rfl

@[simp] theorem places_nil (x : α) : places x [] = [] := rfl

theorem mem_repeats {xs : List α} {first other : Nat} :
    (first, other) ∈ repeats xs ↔ ∃ x, xs[other]? = some x ∧ first = xs.idxOf x ∧ first < other := by
  simp only [repeats, List.mem_filterMap, Prod.exists, List.mem_zipIdx_iff_getElem?]
  constructor
  · rintro ⟨x, i, at_, found⟩
    split at found
    · rename_i before
      cases found
      exact ⟨x, at_, rfl, before⟩
    · nomatch found
  · rintro ⟨x, at_, rfl, before⟩
    exact ⟨x, other, at_, if_pos before⟩

theorem firstOf_of_mem {xs : List α} {x : α} (known : x ∈ xs) : firstOf xs x = some (xs.idxOf x) := if_pos known

theorem firstOf_of_notMem {xs : List α} {x : α} (fresh : x ∉ xs) : firstOf xs x = none := if_neg fresh

theorem firstOf_concat_of_mem {xs : List α} {x : α} (known : x ∈ xs) (y : α) :
    firstOf (xs ++ [x]) y = firstOf xs y := by
  by_cases here : y ∈ xs
  · rw [firstOf_of_mem here, firstOf_of_mem (List.mem_append_left [x] here), List.idxOf_append_of_mem here]
  · have neither : y ∉ xs ++ [x] := by
      rw [List.mem_append, List.mem_singleton, not_or]
      exact ⟨here, fun same => here (same ▸ known)⟩
    rw [firstOf_of_notMem here, firstOf_of_notMem neither]

theorem firstOf_concat_of_notMem {xs : List α} {x : α} (fresh : x ∉ xs) (y : α) :
    firstOf (xs ++ [x]) y = if y = x then some xs.length else firstOf xs y := by
  split
  · rename_i same
    subst same
    rw [firstOf_of_mem (by simp), List.idxOf_append_of_notMem fresh, List.idxOf_cons_self, Nat.add_zero]
  · rename_i other
    by_cases here : y ∈ xs
    · rw [firstOf_of_mem here, firstOf_of_mem (List.mem_append_left [x] here), List.idxOf_append_of_mem here]
    · have neither : y ∉ xs ++ [x] := by
        rw [List.mem_append, List.mem_singleton, not_or]
        exact ⟨here, other⟩
      rw [firstOf_of_notMem here, firstOf_of_notMem neither]

theorem repeats_concat (xs : List α) (x : α) :
    repeats (xs ++ [x]) = repeats xs ++ if x ∈ xs then [(xs.idxOf x, xs.length)] else [] := by
  have front : (xs.zipIdx.filterMap fun (y, i) =>
      if (xs ++ [x]).idxOf y < i then some ((xs ++ [x]).idxOf y, i) else none) = repeats xs := by
    refine List.filterMap_congr fun (y, i) mem => ?_
    have known : y ∈ xs := List.mem_of_getElem? (List.mem_zipIdx_iff_getElem?.mp mem)
    simp only [List.idxOf_append_of_mem known]
  rw [repeats, List.zipIdx_append, List.filterMap_append, front]
  congr 1
  by_cases known : x ∈ xs
  · have before : xs.idxOf x < xs.length := List.idxOf_lt_length_of_mem known
    simp [List.idxOf_append_of_mem known, known, before]
  · simp [List.idxOf_append_of_notMem known, known]

theorem places_concat (x y : α) (xs : List α) :
    places x (xs ++ [y]) = places x xs ++ if y = x then [xs.length] else [] := by
  rw [places, List.zipIdx_append, List.filterMap_append, ← places]
  by_cases same : y = x <;> simp [same]

theorem length_places (x : α) (xs : List α) : (places x xs).length = xs.countP (· = x) := by
  induction xs using List.reverseRecOn with
  | nil => rfl
  | append_singleton xs y ih =>
      rw [places_concat, List.length_append, ih, List.countP_append, List.countP_singleton]
      by_cases same : y = x <;> simp [same]

theorem lt_length_of_mem_places {x : α} {xs : List α} {i : Nat} (mem : i ∈ places x xs) : i < xs.length := by
  simp only [places, List.mem_filterMap, Prod.exists, List.mem_zipIdx_iff_getElem?] at mem
  obtain ⟨y, j, at_, found⟩ := mem
  split at found
  · cases found
    exact (List.getElem?_eq_some_iff.mp at_).1
  · nomatch found

/-- What is repeated is what the distinct elements leave. -/
theorem length_repeats (xs : List α) : (repeats xs).length + xs.toFinset.card = xs.length := by
  induction xs using List.reverseRecOn with
  | nil => rfl
  | append_singleton xs x ih =>
      rw [repeats_concat, List.length_append, List.length_append, List.toFinset_append]
      by_cases known : x ∈ xs
      · have same : xs.toFinset ∪ [x].toFinset = xs.toFinset := by simpa using known
        rw [same, if_pos known, List.length_singleton, List.length_singleton]
        omega
      · have fresh : x ∉ xs.toFinset := by simpa using known
        have more : (xs.toFinset ∪ [x].toFinset).card = xs.toFinset.card + 1 := by
          rw [Finset.union_comm]
          simpa using Finset.card_insert_of_notMem fresh
        rw [more, if_neg known, List.length_nil, List.length_singleton]
        omega

theorem repeats_eq_nil {xs : List α} : repeats xs = [] ↔ xs.Nodup := by
  have len := length_repeats xs
  rw [← List.length_eq_zero_iff]
  constructor
  · intro empty
    have card : (xs : Multiset α).toFinset.card = Multiset.card (xs : Multiset α) := by
      rw [Multiset.coe_card]
      exact (Nat.zero_add _).symm.trans (empty ▸ len)
    exact Multiset.coe_nodup.mp (Multiset.toFinset_card_eq_card_iff_nodup.mp card)
  · intro distinct
    rw [List.toFinset_card_of_nodup distinct] at len
    omega

/-- The repeats are those of the images under a map that tells the elements apart. -/
theorem repeats_map {f : α → β} {xs : List α} (inj : ∀ x ∈ xs, ∀ y ∈ xs, f x = f y → x = y) :
    repeats (xs.map f) = repeats xs := by
  induction xs using List.reverseRecOn with
  | nil => rfl
  | append_singleton xs x ih =>
      have inside : ∀ y ∈ xs, y ∈ xs ++ [x] := fun y mem => List.mem_append_left [x] mem
      have last : x ∈ xs ++ [x] := by simp
      have known : f x ∈ xs.map f ↔ x ∈ xs := by
        refine ⟨fun mem => ?_, List.mem_map_of_mem⟩
        obtain ⟨y, mem, same⟩ := List.mem_map.mp mem
        exact inj y (inside y mem) x last same ▸ mem
      have first (xs : List α) (apart : ∀ y ∈ xs, f y = f x → y = x) : (xs.map f).idxOf (f x) = xs.idxOf x := by
        induction xs with
        | nil => rfl
        | cons y xs ih =>
            have same : f y = f x ↔ y = x := ⟨apart y (.head _), congrArg f⟩
            rw [List.map_cons, List.idxOf_cons, List.idxOf_cons, ih fun z mem => apart z (.tail _ mem)]
            simp only [cond_eq_ite, beq_iff_eq, same]
      rw [List.map_append, List.map_singleton, repeats_concat, repeats_concat,
        ih fun y hy z hz => inj y (inside y hy) z (inside z hz),
        first xs fun y mem => inj y (inside y mem) x last, List.length_map]
      simp only [known]

/-- Over a list of all values, the counts of a list make its length. -/
theorem sum_count {values : List α} (distinct : values.Nodup) {xs : List α} (all : ∀ x ∈ xs, x ∈ values) :
    (values.map fun v => xs.count v).sum = xs.length := by
  induction xs with
  | nil => simp
  | cons x xs ih =>
      have one : (values.map fun v => if x == v then 1 else 0).sum = 1 := by
        refine Eq.trans ?_ (List.count_eq_one_of_mem distinct (all x (.head _)))
        clear ih all distinct
        induction values with
        | nil => rfl
        | cons v values ih =>
            rw [List.map_cons, List.sum_cons, ih, List.count_cons, Nat.add_comm]
            simp only [beq_iff_eq, @eq_comm _ x v]
      simp only [List.count_cons]
      rw [List.sum_map_add, ih fun y mem => all y (.tail _ mem), one, List.length_cons]

end Jbuu.Library
