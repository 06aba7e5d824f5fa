/-
# Library.IdealAead — an authenticated cipher as the list of what was sealed under it

The ideal cipher keeps a ledger of every sealing: who made it, the key, the nonce, the
associated data, the plaintext, and the bytes that came out, which the adversary may
choose. Opening looks the ledger up, so nothing opens that was not sealed with the same
key, nonce, associated data and sealed bytes (`opens_mem`). `NonceFresh`, no two
sealings under one key and nonce, is what an honest user owes the cipher; with it an
opening determines the sealing (`NonceFresh.unique`).
-/
import Mathlib.Data.List.Nodup

namespace Jbuu.Library

set_option autoImplicit false

/-- One sealing: by `owner`, of `plaintext`, into `sealed`. -/
structure Sealing (ω κ ν α μ χ : Type) where
  owner : ω
  key : κ
  nonce : ν
  aad : α
  plaintext : μ
  sealed : χ
  deriving DecidableEq, Repr

namespace Sealing

variable {ω κ ν α μ χ : Type}

/-- The plaintext of the sealing that fits, if there is one. -/
def opens [DecidableEq κ] [DecidableEq ν] [DecidableEq α] [DecidableEq χ]
    (ledger : List (Sealing ω κ ν α μ χ)) (key : κ) (nonce : ν) (aad : α) (sealed : χ) :
    Option μ :=
  (ledger.find? fun e => e.key = key ∧ e.nonce = nonce ∧ e.aad = aad ∧ e.sealed = sealed).map
    (·.plaintext)

theorem opens_mem [DecidableEq κ] [DecidableEq ν] [DecidableEq α] [DecidableEq χ]
    {ledger : List (Sealing ω κ ν α μ χ)} {key : κ} {nonce : ν} {aad : α} {sealed : χ} {m : μ}
    (opened : opens ledger key nonce aad sealed = some m) :
    ∃ e ∈ ledger, e.key = key ∧ e.nonce = nonce ∧ e.aad = aad ∧ e.sealed = sealed ∧
      e.plaintext = m := by
  obtain ⟨e, found, plain⟩ := Option.map_eq_some_iff.mp opened
  have fits := List.find?_some found
  simp only [decide_eq_true_eq] at fits
  exact ⟨e, List.mem_of_find?_eq_some found, fits.1, fits.2.1, fits.2.2.1, fits.2.2.2, plain⟩

/-- No key and nonce were used for two sealings. -/
def NonceFresh (ledger : List (Sealing ω κ ν α μ χ)) : Prop :=
  (ledger.map fun e => (e.key, e.nonce)).Nodup

theorem NonceFresh.nil : NonceFresh ([] : List (Sealing ω κ ν α μ χ)) := List.nodup_nil

theorem NonceFresh.append {ledger : List (Sealing ω κ ν α μ χ)} {e : Sealing ω κ ν α μ χ}
    (fresh : NonceFresh ledger)
    (unused : ∀ old ∈ ledger, old.key = e.key → old.nonce ≠ e.nonce) :
    NonceFresh (ledger ++ [e]) := by
  unfold NonceFresh
  rw [List.map_append, List.nodup_append]
  refine ⟨fresh, by simp, ?_⟩
  intro pair old pair' new
  obtain ⟨e', mem, rfl⟩ := List.mem_map.mp old
  obtain rfl : pair' = (e.key, e.nonce) := by simpa using new
  intro same
  exact unused e' mem (congrArg Prod.fst same) (congrArg Prod.snd same)

theorem NonceFresh.unique {ledger : List (Sealing ω κ ν α μ χ)} (fresh : NonceFresh ledger)
    {e e' : Sealing ω κ ν α μ χ} (mem : e ∈ ledger) (mem' : e' ∈ ledger) (key : e.key = e'.key)
    (nonce : e.nonce = e'.nonce) : e = e' :=
  List.inj_on_of_nodup_map fresh mem mem' (Prod.ext key nonce)

end Sealing

end Jbuu.Library
