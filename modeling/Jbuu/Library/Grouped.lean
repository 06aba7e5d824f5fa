/-
# Library.Grouped — a sorted list is its groups

Entries with a key, sorted by it: put together they are, key by key, what each key's entries
put together are.
-/
import Mathlib.Data.List.Basic
import Mathlib.Order.Lattice

namespace Jbuu.Library

set_option autoImplicit false

variable {ε κ α : Type} [LinearOrder κ] {key : ε → κ}

/-- The entries of the least key come first. -/
theorem filter_append_filter {entries : List ε} {k : κ} (sorted : entries.Pairwise fun a b => key a ≤ key b)
    (least : ∀ e ∈ entries, k ≤ key e) :
    entries.filter (key · = k) ++ entries.filter (key · ≠ k) = entries := by
  induction entries with
  | nil => rfl
  | cons e rest ih =>
      obtain ⟨first, sorted⟩ := List.pairwise_cons.mp sorted
      have least' : ∀ e' ∈ rest, k ≤ key e' := fun e' mem => least e' (List.mem_cons_of_mem _ mem)
      by_cases same : key e = k
      · simpa [same] using ih sorted least'
      · -- past the least key there is none of it
        have past : k < key e := lt_of_le_of_ne (least e List.mem_cons_self) (Ne.symm same)
        have none_ : ∀ e' ∈ e :: rest, key e' ≠ k := by
          intro e' mem
          rcases List.mem_cons.mp mem with rfl | later
          · exact same
          · exact ne_of_gt (lt_of_lt_of_le past (first e' later))
        rw [List.filter_eq_nil_iff.mpr (by simpa using none_), List.filter_eq_self.mpr (by simpa using none_)]
        rfl

/-- **A sorted list is its groups**, in the order of any increasing list of keys that has all of
them. -/
theorem flatMap_eq_groups (value : ε → List α) {keys : List κ} (increasing : keys.Pairwise (· < ·))
    {entries : List ε} (sorted : entries.Pairwise fun a b => key a ≤ key b)
    (known : ∀ e ∈ entries, key e ∈ keys) :
    entries.flatMap value = keys.flatMap fun k => (entries.filter (key · = k)).flatMap value := by
  induction keys generalizing entries with
  | nil =>
      have none_ : entries = [] := List.eq_nil_iff_forall_not_mem.mpr fun e mem => List.not_mem_nil (known e mem)
      rw [none_]
      rfl
  | cons k keys ih =>
      obtain ⟨below, increasing⟩ := List.pairwise_cons.mp increasing
      have least : ∀ e ∈ entries, k ≤ key e := by
        intro e mem
        rcases List.mem_cons.mp (known e mem) with same | later
        · exact same.ge
        · exact (below _ later).le
      have known' : ∀ e ∈ entries.filter (key · ≠ k), key e ∈ keys := by
        intro e mem
        obtain ⟨mem, other⟩ := List.mem_filter.mp mem
        exact (List.mem_cons.mp (known e mem)).resolve_left (by simpa using other)
      -- the groups of the other keys are those of the rest
      have later : (keys.flatMap fun k' => ((entries.filter (key · ≠ k)).filter (key · = k')).flatMap value) =
          keys.flatMap fun k' => (entries.filter (key · = k')).flatMap value := by
        refine List.flatMap_congr fun k' mem => ?_
        have ne : k' ≠ k := ne_of_gt (below k' mem)
        rw [List.filter_filter]
        congr 1
        refine List.filter_congr fun e _ => ?_
        by_cases same : key e = k'
        · simp [same, ne]
        · simp [same]
      calc entries.flatMap value
          = (entries.filter (key · = k) ++ entries.filter (key · ≠ k)).flatMap value := by
            rw [filter_append_filter sorted least]
        _ = (entries.filter (key · = k)).flatMap value ++ (entries.filter (key · ≠ k)).flatMap value :=
            List.flatMap_append
        _ = (entries.filter (key · = k)).flatMap value ++
              keys.flatMap fun k' => (entries.filter (key · = k')).flatMap value := by
            rw [ih increasing (sorted.filter _) known', later]
        _ = (k :: keys).flatMap fun k' => (entries.filter (key · = k')).flatMap value := rfl

end Jbuu.Library
