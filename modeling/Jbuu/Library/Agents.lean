/-
# Library.Agents — agents that take turns on one state, in any order

In a state each agent has one next step, or none while it waits. Where the steps of different
agents commute, the order of the turns does not matter: if one order comes to a state in which
all agents rest, then every first step still leads there, in one step less (`Reaches.strip`),
and every schedule that forgets no agent comes there and stays (`settles`).
-/
import Mathlib.Tactic.Common

namespace Jbuu.Library

set_option autoImplicit false

structure Agents (ι S : Type) where
  /-- The next step of an agent; `none` where it waits or has finished. -/
  step : ι → S → Option S
  commute : ∀ {i j : ι} {s t u : S}, i ≠ j → step i s = some t → step j s = some u →
    ∃ v, step j t = some v ∧ step i u = some v

namespace Agents

variable {ι S : Type} (A : Agents ι S)

/-- In `n` steps, whoever takes them. -/
inductive Reaches : Nat → S → S → Prop
  | refl (s : S) : Reaches 0 s s
  | step {i : ι} {n : Nat} {s t e : S} (first : A.step i s = some t) (rest : Reaches n t e) :
      Reaches (n + 1) s e

/-- Every agent waits or has finished. -/
def Rests (s : S) : Prop := ∀ i, A.step i s = none

/-- A turn: one that waits leaves the state as it is. -/
def turn (i : ι) (s : S) : S := (A.step i s).getD s

/-- The state after the first `n` turns of a schedule. -/
def after (schedule : Nat → ι) : Nat → S → S
  | 0, s => s
  | n + 1, s => after (fun k => schedule (k + 1)) n (A.turn (schedule 0) s)

/-- Every agent has its turn again and again. -/
def Fair (schedule : Nat → ι) : Prop := ∀ i n, ∃ m, n ≤ m ∧ schedule m = i

/-- Every fair schedule comes to `e` and stays there. -/
def Settles (s e : S) : Prop :=
  ∀ schedule, Fair schedule → ∃ n, ∀ m, n ≤ m → A.after schedule m s = e

variable {A}

theorem Fair.tail {schedule : Nat → ι} (fair : Fair schedule) : Fair fun k => schedule (k + 1) := by
  intro i n
  obtain ⟨m, later, there⟩ := fair i (n + 1)
  obtain ⟨k, rfl⟩ : ∃ k, m = k + 1 := ⟨m - 1, by omega⟩
  exact ⟨k, by omega, there⟩

theorem Reaches.trans {n m : Nat} {s t e : S} (first : A.Reaches n s t) (rest : A.Reaches m t e) :
    A.Reaches (n + m) s e := by
  induction first with
  | refl s => rwa [Nat.zero_add]
  | step first _ ih =>
      rw [Nat.add_right_comm]
      exact .step first (ih rest)

/-- **Strip.** Whichever step is taken first, the rest is one step shorter. -/
theorem Reaches.strip {n : Nat} {s e : S} (reaches : A.Reaches n s e) (rests : A.Rests e) {i : ι}
    {t : S} (first : A.step i s = some t) : ∃ m, n = m + 1 ∧ A.Reaches m t e := by
  induction reaches generalizing t with
  | refl s =>
      rw [rests i] at first
      cases first
  | @step j n s u e other rest ih =>
      by_cases same : i = j
      · subst same
        obtain rfl : t = u := Option.some.inj (first.symm.trans other)
        exact ⟨n, rfl, rest⟩
      · obtain ⟨v, later, sooner⟩ := A.commute same first other
        obtain ⟨m, rfl, shorter⟩ := ih rests sooner
        exact ⟨m + 1, rfl, .step later shorter⟩

theorem after_of_rests {s : S} (rests : A.Rests s) (schedule : Nat → ι) (n : Nat) :
    A.after schedule n s = s := by
  induction n generalizing schedule with
  | zero => rfl
  | succ n ih =>
      have same : A.turn (schedule 0) s = s := by simp [turn, rests (schedule 0)]
      rw [after, same, ih]

/-- What comes after the first turn comes after it. -/
theorem settles_of_turn {schedule : Nat → ι} {s e : S}
    (later : ∃ n, ∀ m, n ≤ m → A.after (fun k => schedule (k + 1)) m (A.turn (schedule 0) s) = e) :
    ∃ n, ∀ m, n ≤ m → A.after schedule m s = e := by
  obtain ⟨n, stays⟩ := later
  refine ⟨n + 1, fun m long => ?_⟩
  obtain ⟨k, rfl⟩ : ∃ k, m = k + 1 := ⟨m - 1, by omega⟩
  exact stays k (by omega)

/-- **The order of the turns does not matter.** -/
theorem settles {n : Nat} {s e : S} (reaches : A.Reaches n s e) (rests : A.Rests e) :
    A.Settles s e := by
  induction n generalizing s with
  | zero =>
      cases reaches
      exact fun schedule _ => ⟨0, fun m _ => after_of_rests rests schedule m⟩
  | succ n ih =>
      intro schedule fair
      -- the agent that can step has its turn at `m`; until then others may step before it
      obtain ⟨j, t, first⟩ : ∃ j t, A.step j s = some t := by
        cases reaches with
        | step first _ => exact ⟨_, _, first⟩
      obtain ⟨m, -, there⟩ := fair j 0
      induction m generalizing schedule with
      | zero =>
          obtain ⟨_, same, shorter⟩ := reaches.strip rests first
          obtain rfl := Nat.succ.inj same
          apply settles_of_turn
          have turned : A.turn (schedule 0) s = t := by simp [turn, there, first]
          rw [turned]
          exact ih shorter _ fair.tail
      | succ m wait =>
          apply settles_of_turn
          cases now : A.step (schedule 0) s with
          | none =>
              have same : A.turn (schedule 0) s = s := by simp [turn, now]
              rw [same]
              exact wait _ fair.tail there
          | some u =>
              obtain ⟨_, same, shorter⟩ := reaches.strip rests now
              obtain rfl := Nat.succ.inj same
              have turned : A.turn (schedule 0) s = u := by simp [turn, now]
              rw [turned]
              exact ih shorter _ fair.tail

end Agents

end Jbuu.Library
