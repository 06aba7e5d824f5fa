/-
# Library.Runs — runs of an event-driven machine, and the induction over them

A machine is a step function `step : ε → σ → σ`; a run is a list of events. An
invariant is proved once per event (`run_invariant`). Where a property needs a
condition on the events taken, `Along` says that every step of the run met it in
the state it was taken in, and `run_invariant_along` is the same induction under it.

That a machine gets somewhere is `rounds_end`: a measure no event adds to, and in every
round an event that takes from it.
-/
import Mathlib.Logic.Basic

namespace Jbuu.Library

set_option autoImplicit false

variable {ε σ : Type} (step : ε → σ → σ)

/-- The state after a list of events. -/
def run : List ε → σ → σ
  | [], s => s
  | event :: rest, s => run rest (step event s)

/-- Every event of the run met `ok` in the state it was taken in. -/
def Along (ok : σ → ε → Prop) : List ε → σ → Prop
  | [], _ => True
  | event :: rest, s => ok s event ∧ Along ok rest (step event s)

instance decidableAlong (ok : σ → ε → Prop) [∀ s, DecidablePred (ok s)] :
    ∀ events s, Decidable (Along step ok events s)
  | [], _ => .isTrue trivial
  | event :: rest, s => @instDecidableAnd _ _ _ (decidableAlong ok rest (step event s))

theorem run_append (before after : List ε) (s : σ) :
    run step (before ++ after) s = run step after (run step before s) := by
  induction before generalizing s with
  | nil => rfl
  | cons event rest ih => exact ih (step event s)

theorem run_invariant {inv : σ → Prop} (preserved : ∀ event s, inv s → inv (step event s))
    (events : List ε) {s : σ} (start : inv s) : inv (run step events s) := by
  induction events generalizing s with
  | nil => exact start
  | cons event rest ih => exact ih (preserved event s start)

theorem run_invariant_along {ok : σ → ε → Prop} {inv : σ → Prop}
    (preserved : ∀ event s, ok s event → inv s → inv (step event s)) (events : List ε) {s : σ}
    (along : Along step ok events s) (start : inv s) : inv (run step events s) := by
  induction events generalizing s with
  | nil => exact start
  | cons event rest ih => exact ih along.2 (preserved event s along.1 start)

theorem Along.append {ok : σ → ε → Prop} {before after : List ε} {s : σ} :
    Along step ok (before ++ after) s ↔
      Along step ok before s ∧ Along step ok after (run step before s) := by
  induction before generalizing s with
  | nil => simp [Along, run]
  | cons event rest ih => simp [Along, run, ih, and_assoc]

/-- Two conditions on the events that say the same wherever the invariant holds. -/
theorem along_iff {ok ok' : σ → ε → Prop} {inv : σ → Prop}
    (preserved : ∀ event s, inv s → inv (step event s))
    (same : ∀ event s, inv s → (ok s event ↔ ok' s event)) (events : List ε) {s : σ} (start : inv s) :
    Along step ok events s ↔ Along step ok' events s := by
  induction events generalizing s with
  | nil => exact Iff.rfl
  | cons event rest ih => exact and_congr (same event s start) (ih (preserved event s start))

/-- A condition that the invariant implies holds along every run. -/
theorem along_of_invariant {ok : σ → ε → Prop} {inv : σ → Prop}
    (preserved : ∀ event s, inv s → inv (step event s)) (holds : ∀ event s, inv s → ok s event)
    (events : List ε) {s : σ} (start : inv s) : Along step ok events s := by
  induction events generalizing s with
  | nil => exact trivial
  | cons event rest ih => exact ⟨holds event s start, ih (preserved event s start)⟩

/-- A condition that every event of the list meets in every state. -/
theorem along_of_forall {ok : σ → ε → Prop} {events : List ε}
    (holds : ∀ event ∈ events, ∀ s, ok s event) {s : σ} : Along step ok events s := by
  induction events generalizing s with
  | nil => exact trivial
  | cons event rest ih =>
      exact ⟨holds event (List.mem_cons_self ..) s,
        ih fun later mem => holds later (List.mem_cons_of_mem _ mem)⟩

/-! ## Ending -/

/-- What a fair schedule needs to come to an end: events that are `ok` keep the invariant,
leave the state alone or take from `work`, and never undo `done`. -/
structure Progress (ok : ε → Prop) (inv done : σ → Prop) (work : σ → Nat) : Prop where
  kept : ∀ event s, ok event → inv s → inv (step event s)
  final : ∀ event s, done s → done (step event s)
  idle_or_works : ∀ event s, ok event → inv s → ¬done s →
    step event s = s ∨ work (step event s) < work s
  busy : ∀ s, inv s → ¬done s → 0 < work s

variable {step}

/-- After a list of events the machine is done, or it got on, or nothing changed. -/
theorem Progress.idle_or_works_along {ok : ε → Prop} {inv done : σ → Prop} {work : σ → Nat}
    (progress : Progress step ok inv done work) {events : List ε}
    (fair : ∀ event ∈ events, ok event) {s : σ} (start : inv s) :
    done (run step events s) ∨ inv (run step events s) ∧
      (work (run step events s) < work s ∨
        run step events s = s ∧ ∀ event ∈ events, step event s = s) := by
  induction events generalizing s with
  | nil => exact .inr ⟨start, .inr ⟨rfl, by simp⟩⟩
  | cons event rest ih =>
      have okay := fair event (List.mem_cons_self ..)
      by_cases ended : done s
      · exact .inl (run_invariant step progress.final (event :: rest) ended)
      · have next := ih (fun e mem => fair e (List.mem_cons_of_mem _ mem))
          (progress.kept event s okay start)
        rw [run]
        rcases progress.idle_or_works event s okay start ended with idle | works
        · rw [idle] at next ⊢
          refine next.imp_right (And.imp_right (Or.imp_right (And.imp_right ?_)))
          intro all
          simpa using ⟨idle, all⟩
        · refine next.imp_right (And.imp_right ?_)
          rintro (less | ⟨same, -⟩)
          · exact .inl (Nat.lt_trans less works)
          · left
            rw [same]
            exact works

/-- **A fair schedule ends**: rounds, as many as there is work, each with an event that gets
on wherever the machine is not done. -/
theorem Progress.rounds_end {ok : ε → Prop} {inv done : σ → Prop} {work : σ → Nat}
    (progress : Progress step ok inv done work) {rounds : List (List ε)}
    (fair : ∀ round ∈ rounds, (∀ event ∈ round, ok event) ∧
      ∀ s, inv s → ¬done s → ∃ event ∈ round, work (step event s) < work s)
    {s : σ} (start : inv s) (enough : work s ≤ rounds.length) :
    done (run step rounds.flatten s) := by
  induction rounds generalizing s with
  | nil =>
      by_cases ended : done s
      · exact ended
      · have some_left := progress.busy s start ended
        simp only [List.length_nil] at enough
        omega
  | cons round rounds ih =>
      obtain ⟨calmly, useful⟩ := fair round (List.mem_cons_self ..)
      rw [List.flatten_cons, run_append]
      by_cases ended : done s
      · exact run_invariant step progress.final _ (run_invariant step progress.final _ ended)
      · rcases progress.idle_or_works_along calmly start with past | ⟨kept, less | ⟨-, idle⟩⟩
        · exact run_invariant step progress.final _ past
        · refine ih (fun r mem => fair r (List.mem_cons_of_mem _ mem)) kept ?_
          simp only [List.length_cons] at enough
          omega
        · obtain ⟨event, mem, works⟩ := useful s start ended
          rw [idle event mem] at works
          exact absurd works (Nat.lt_irrefl _)

end Jbuu.Library
