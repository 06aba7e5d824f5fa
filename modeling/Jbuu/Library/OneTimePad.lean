/-
# Library.OneTimePad — bytes laid over a pad, and why a uniform pad hides them

A `Patch` is a run of bytes at an address; a list of patches is a mask, which says what to
XOR to the byte at each address (`mask`). Where the patches lie apart, the mask reads as a
patch inside it and as zero outside all of them. XOR with a mask is an involution of the
pads (`masked`); where such an involution takes the pads with which one program shows a
view to those with which another shows the same view, a uniform pad shows that view
equally often with both (`map_uniform_eq`). That is all there is to perfect secrecy.
-/
import Mathlib.Probability.Distributions.Uniform
import Jbuu.Library.OneTime

namespace Jbuu.Library

set_option autoImplicit false

/-! ## Masks -/

/-- Bytes from an address on. -/
structure Patch where
  first : Nat
  bytes : List UInt8
  deriving DecidableEq, Repr

namespace Patch

def span (p : Patch) : Span := ⟨p.first, p.bytes.length⟩

/-- The byte at an address, zero outside. -/
def byte (p : Patch) (a : Nat) : UInt8 := if p.first ≤ a then p.bytes.getD (a - p.first) 0 else 0

theorem byte_outside {p : Patch} {a : Nat} (outside : a ∉ p.span.addresses) : p.byte a = 0 := by
  unfold byte
  split
  · rename_i after
    rw [Span.mem_addresses] at outside
    simp only [span] at outside
    rw [List.getD_eq_getElem?_getD, List.getElem?_eq_none (by omega)]
    rfl
  · rfl

theorem byte_inside {p : Patch} (i : Nat) : p.byte (p.first + i) = p.bytes.getD i 0 := by
  unfold byte
  rw [if_pos (Nat.le_add_right _ _), Nat.add_sub_cancel_left]

end Patch

/-- What the patches put at an address, all together. -/
def mask (patches : List Patch) (a : Nat) : UInt8 :=
  patches.foldr (fun p rest => p.byte a ^^^ rest) 0

theorem mask_outside {patches : List Patch} {a : Nat}
    (outside : ∀ p ∈ patches, a ∉ p.span.addresses) : mask patches a = 0 := by
  induction patches with
  | nil => rfl
  | cons p rest ih =>
      have later := ih fun q mem => outside q (List.mem_cons_of_mem _ mem)
      show p.byte a ^^^ mask rest a = 0
      rw [later, Patch.byte_outside (outside p List.mem_cons_self), UInt8.xor_self]

/-- Where no two patches overlap, the mask is each of them inside it. -/
theorem mask_inside {patches : List Patch}
    (apart : patches.Pairwise fun p q => Disjoint p.span.addresses q.span.addresses) {p : Patch}
    (mem : p ∈ patches) {a : Nat} (inside : a ∈ p.span.addresses) : mask patches a = p.byte a := by
  induction patches with
  | nil => exact absurd mem List.not_mem_nil
  | cons q rest ih =>
      obtain ⟨first, others⟩ := List.pairwise_cons.mp apart
      show q.byte a ^^^ mask rest a = p.byte a
      rcases List.mem_cons.mp mem with rfl | later
      · have none_ : mask rest a = 0 := by
          apply mask_outside
          intro q there inQ
          exact Multiset.disjoint_left.mp (first q there) inside inQ
        rw [none_, UInt8.xor_zero]
      · have outside : a ∉ q.span.addresses := fun inQ =>
          Multiset.disjoint_left.mp (first p later) inQ inside
        rw [Patch.byte_outside outside, UInt8.zero_xor, ih others later]

/-- What the difference of two bytes adds to a pad, the other byte takes up. -/
theorem xor_difference (b b' k : UInt8) : b' ^^^ (k ^^^ (b ^^^ b')) = b ^^^ k := by
  calc b' ^^^ (k ^^^ (b ^^^ b')) = (b' ^^^ b') ^^^ (b ^^^ k) := by ac_rfl
    _ = b ^^^ k := by rw [UInt8.xor_self, UInt8.zero_xor]

/-! ## Pads -/

instance fintypeUInt8 : Fintype UInt8 :=
  .ofEquiv (Fin 256) ⟨UInt8.ofFin, UInt8.toFin, fun _ => rfl, fun _ => rfl⟩

/-- A pad of `n` bytes. -/
abbrev Pads (n : Nat) := Fin n → UInt8

/-- The byte at an address, zero past the end. -/
def Pads.byte {n : Nat} (pads : Pads n) (a : Nat) : UInt8 := if inside : a < n then pads ⟨a, inside⟩ else 0

/-- The pads with something on top. -/
def masked {n : Nat} (delta : Nat → UInt8) (pads : Pads n) : Pads n := fun i => pads i ^^^ delta i

theorem masked_involutive {n : Nat} (delta : Nat → UInt8) :
    Function.Involutive (masked delta : Pads n → Pads n) := by
  intro pads
  funext i
  simp [masked, UInt8.xor_assoc]

theorem byte_masked {n : Nat} (delta : Nat → UInt8) (pads : Pads n) {a : Nat} (inside : a < n) :
    (masked delta pads).byte a = pads.byte a ^^^ delta a := by
  unfold Pads.byte
  rw [dif_pos inside, dif_pos inside]
  rfl

/-! ## Views of a uniform pad -/

/-- **Two programs show a view equally often**, where an involution of the pads takes each to
the other. -/
theorem map_uniform_eq {K V : Type} [Fintype K] [Nonempty K] {f g : K → V} {v : V} {turn : K → K}
    (involutive : Function.Involutive turn) (there : ∀ k, f k = v → g (turn k) = v)
    (back : ∀ k, g k = v → f (turn k) = v) :
    (PMF.uniformOfFintype K).map f v = (PMF.uniformOfFintype K).map g v := by
  let around := Function.Involutive.toPerm turn involutive
  have same : ∀ k, v = f (around k) ↔ v = g k := by
    intro k
    constructor
    · intro shown
      have kept := there (turn k) shown.symm
      rw [involutive k] at kept
      exact kept.symm
    · intro shown
      exact (back k shown.symm).symm
  rw [PMF.map_apply, PMF.map_apply, ← around.tsum_eq]
  apply tsum_congr
  intro k
  simp only [PMF.uniformOfFintype_apply]
  by_cases shown : v = g k
  · rw [if_pos shown, if_pos ((same k).mpr shown)]
  · rw [if_neg shown, if_neg (mt (same k).mp shown)]

end Jbuu.Library
