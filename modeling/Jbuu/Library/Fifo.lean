/-
# Library.Fifo — two ends of a FIFO channel, one behind the other

`reads v f w` says that an end in the view `v` that takes the frame `f` is then in the view
`w`. The receiving end of a channel is behind the sending end by what is in flight:
`Catches v frames w` says that the view `v` becomes `w` once the frames are taken in order.
Sending adds a frame at the back (`push`), a delivery takes the front one (`pop`); a
quantity that every reading only extends is a prefix at the receiving end (`prefix_of`).
-/
import Mathlib.Data.List.Infix

namespace Jbuu.Library

set_option autoImplicit false

variable {ν φ : Type} {reads : ν → φ → ν → Prop}

/-- `v` becomes `w` by taking the frames in order. -/
inductive Catches (reads : ν → φ → ν → Prop) : ν → List φ → ν → Prop where
  | nil (v : ν) : Catches reads v [] v
  | cons {v v' w : ν} {f : φ} {frames : List φ} (head : reads v f v') (tail : Catches reads v' frames w) :
      Catches reads v (f :: frames) w

namespace Catches

variable {v w w' : ν} {f : φ} {frames : List φ}

theorem push (behind : Catches reads v frames w) (sent : reads w f w') :
    Catches reads v (frames ++ [f]) w' := by
  induction behind with
  | nil v => exact .cons sent (.nil w')
  | cons head tail ih => exact .cons head (ih sent)

theorem pop (behind : Catches reads v (f :: frames) w) :
    ∃ v', reads v f v' ∧ Catches reads v' frames w := by
  cases behind with
  | cons head tail => exact ⟨_, head, tail⟩

/-- Where every reading keeps a property of the view, the sending end has it too. -/
theorem keeps {kept : ν → Prop} (step : ∀ v f v', reads v f v' → kept v → kept v')
    (behind : Catches reads v frames w) (start : kept v) : kept w := by
  induction behind with
  | nil v => exact start
  | cons head tail ih => exact ih (step _ _ _ head start)

/-- The receiving end has a prefix of what the sending end has. -/
theorem prefix_of {β : Type} (log : ν → List β) (step : ∀ v f v', reads v f v' → log v <+: log v')
    (behind : Catches reads v frames w) : log v <+: log w := by
  induction behind with
  | nil v => exact List.prefix_rfl
  | cons head tail ih => exact (step _ _ _ head).trans ih

/-- Both ends are changed alike, where the readings of the frames in flight stay readings. -/
theorem map {change : ν → ν} {kept : ν → Prop} (step : ∀ v f v', reads v f v' → kept v → kept v')
    (same : ∀ v f v', reads v f v' → kept v → reads (change v) f (change v'))
    (behind : Catches reads v frames w) (start : kept v) : Catches reads (change v) frames (change w) := by
  induction behind with
  | nil v => exact .nil (change v)
  | cons head tail ih => exact .cons (same _ _ _ head start) (ih (step _ _ _ head start))

end Catches

end Jbuu.Library
