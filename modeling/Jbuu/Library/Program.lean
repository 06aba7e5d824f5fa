/-
# Library.Program — programs over requests, run against a device that may fail or crash

A `Program` is code whose only contact with the outside is a request `op` that is
answered with a `Reply op`. It says nothing about who answers. A `Device` answers:
at a *fate*, the adversary's choice for that one request, it replies or crashes the
machine and moves its state. One program can so be run against a disk that tears
writes, against an ideal cipher, or against an oracle that answers anything.

* `exec` runs a program on a list of fates, one per request (the default fate once
  the list is used up), and is executable.
* `wp` is the weakest precondition over all fates, with a second postcondition for
  the states a crash may leave. `exec_of_wp` is its soundness.
* `wp_bind` and `wp_mono` are the rules proofs are made of. A program that reaches
  `panic` has no precondition, so every `wp` also says that no panic is reached.
* `attempt`, `failWith` and `wp_except_bind` are the same for code that stops at its
  first error, as `ExceptT` over programs.
* `returns_of_wp` is for the run in which nothing goes wrong: no fates, a `calm` device.
* `trace` is the list of requests made and replies given, for statements about what a
  program touched; `trace_of_wp` relates it to the result.
-/
import Mathlib.Logic.Basic
import Mathlib.Tactic.Common

namespace Jbuu.Library

set_option autoImplicit false

/-- Code that asks its device for a reply, one request at a time. -/
inductive Program (Op : Type) (Reply : Op → Type) (α : Type) : Type where
  | pure (value : α)
  /-- An `expect` that failed: the code does not continue. -/
  | panic
  | request (op : Op) (next : Reply op → Program Op Reply α)

namespace Program

variable {Op : Type} {Reply : Op → Type} {α β γ : Type}

def bind : Program Op Reply α → (α → Program Op Reply β) → Program Op Reply β
  | .pure value, f => f value
  | .panic, _ => .panic
  | .request op next, f => .request op fun reply => (next reply).bind f

instance : Monad (Program Op Reply) where
  pure := .pure
  bind := .bind

/-- One request, its reply returned. -/
def call (op : Op) : Program Op Reply (Reply op) := .request op .pure

/-- The `expect` of the code: the value, or a panic. -/
def expect : Option α → Program Op Reply α
  | some value => .pure value
  | none => .panic

instance : LawfulMonad (Program Op Reply) := by
  refine LawfulMonad.mk' (Program Op Reply) ?_ (fun _ _ => rfl) ?_
  · intro α p
    induction p with
    | pure value => rfl
    | panic => rfl
    | request op next ih => exact congrArg (request op) (funext ih)
  · intro α β γ p f g
    induction p with
    | pure value => rfl
    | panic => rfl
    | request op next ih => exact congrArg (request op) (funext ih)

end Program

/-- How a run ends. -/
inductive Outcome (α : Type) where
  | returned (value : α)
  | crashed
  | panicked
  deriving DecidableEq, Repr

/-- The value a run returned, changed. -/
def Outcome.map {α β : Type} (f : α → β) : Outcome α → Outcome β
  | .returned value => .returned (f value)
  | .crashed => .crashed
  | .panicked => .panicked

/-- A device answers a request at a fate with a reply, or crashes (`none`). -/
abbrev Device (Op : Type) (Reply : Op → Type) (φ σ : Type) :=
  (op : Op) → φ → σ → Option (Reply op) × σ

namespace Program

variable {Op : Type} {Reply : Op → Type} {φ σ α β : Type}

/-- Run a program, one fate per request. -/
def exec [Inhabited φ] (D : Device Op Reply φ σ) :
    Program Op Reply α → List φ → σ → Outcome α × σ
  | .pure value, _, s => (.returned value, s)
  | .panic, _, s => (.panicked, s)
  | .request op next, fates, s =>
      match D op (fates.headD default) s with
      | (some reply, s') => (next reply).exec D fates.tail s'
      | (none, s') => (.crashed, s')

@[simp] theorem exec_pure [Inhabited φ] {D : Device Op Reply φ σ} {value : α} {fates : List φ}
    {s : σ} : (Pure.pure value : Program Op Reply α).exec D fates s = (.returned value, s) := rfl

theorem exec_call_bind [Inhabited φ] {D : Device Op Reply φ σ} {op : Op}
    {f : Reply op → Program Op Reply α} {fates : List φ} {s : σ} :
    (call op >>= f).exec D fates s =
      match D op (fates.headD default) s with
      | (some reply, s') => (f reply).exec D fates.tail s'
      | (none, s') => (.crashed, s') := by
  show exec D (request op _) fates s = _
  rw [exec]
  rcases D op (fates.headD default) s with ⟨_ | reply, s'⟩ <;> rfl

/-- What is done with the value at the end changes nothing of the run. -/
theorem exec_bind_pure [Inhabited φ] {D : Device Op Reply φ σ} {p : Program Op Reply α} {f : α → β}
    {fates : List φ} {s : σ} :
    (p >>= fun a => Pure.pure (f a)).exec D fates s =
      ((p.exec D fates s).1.map f, (p.exec D fates s).2) := by
  induction p generalizing fates s with
  | pure value => rfl
  | panic => rfl
  | request op next ih =>
      show exec D (request op fun reply => next reply >>= fun a => Pure.pure (f a)) fates s = _
      rw [exec, exec]
      rcases D op (fates.headD default) s with ⟨_ | reply, s'⟩
      · rfl
      · exact ih reply

/-- The weakest precondition: whatever the fates, the program returns into `post`
or crashes into `crash`, and never panics. -/
def wp (D : Device Op Reply φ σ) (post : α → σ → Prop) (crash : σ → Prop) :
    Program Op Reply α → σ → Prop
  | .pure value, s => post value s
  | .panic, _ => False
  | .request op next, s => ∀ fate,
      match D op fate s with
      | (some reply, s') => (next reply).wp D post crash s'
      | (none, s') => crash s'

section Rules

variable {D : Device Op Reply φ σ} {crash : σ → Prop}

@[simp] theorem wp_pure {post : α → σ → Prop} {value : α} {s : σ} :
    (Pure.pure value : Program Op Reply α).wp D post crash s ↔ post value s := Iff.rfl

@[simp] theorem wp_panic {post : α → σ → Prop} {s : σ} :
    (panic : Program Op Reply α).wp D post crash s ↔ False := Iff.rfl

@[simp] theorem wp_bind {p : Program Op Reply α} {f : α → Program Op Reply β}
    {post : β → σ → Prop} {s : σ} :
    (p >>= f).wp D post crash s ↔ p.wp D (fun value s => (f value).wp D post crash s) crash s := by
  induction p generalizing s with
  | pure value => exact Iff.rfl
  | panic => exact Iff.rfl
  | request op next ih =>
      refine forall_congr' fun fate => ?_
      rcases D op fate s with ⟨_ | reply, s'⟩
      · exact Iff.rfl
      · exact ih reply

@[simp] theorem wp_map {p : Program Op Reply α} {f : α → β} {post : β → σ → Prop} {s : σ} :
    (f <$> p).wp D post crash s ↔ p.wp D (fun value s => post (f value) s) crash s := by
  rw [map_eq_pure_bind, wp_bind]
  exact Iff.rfl

theorem wp_mono {post post' : α → σ → Prop} {crash' : σ → Prop} {p : Program Op Reply α} {s : σ}
    (holds : p.wp D post crash s) (returns : ∀ value s', post value s' → post' value s')
    (crashes : ∀ s', crash s' → crash' s') : p.wp D post' crash' s := by
  induction p generalizing s with
  | pure value => exact returns value s holds
  | panic => exact holds
  | request op next ih =>
      intro fate
      have now := holds fate
      generalize D op fate s = answer at now ⊢
      rcases answer with ⟨_ | reply, s'⟩
      · exact crashes s' now
      · exact ih reply now

theorem wp_expect {post : α → σ → Prop} {value : Option α} {s : σ} :
    (expect value : Program Op Reply α).wp D post crash s ↔ ∃ a, value = some a ∧ post a s := by
  cases value with
  | none => simp [expect]
  | some a => simp [expect, wp]

/-- **Soundness.** A run of a program whose precondition holds ends in `post` or in
`crash`, and does not panic. -/
theorem exec_of_wp [Inhabited φ] {post : α → σ → Prop} {p : Program Op Reply α} {s : σ}
    (holds : p.wp D post crash s) (fates : List φ) :
    match p.exec D fates s with
    | (.returned value, s') => post value s'
    | (.crashed, s') => crash s'
    | (.panicked, _) => False := by
  induction p generalizing s fates with
  | pure value => exact holds
  | panic => exact holds
  | request op next ih =>
      have now := holds (fates.headD default)
      rw [exec]
      generalize D op (fates.headD default) s = answer at now ⊢
      rcases answer with ⟨_ | reply, s'⟩
      · exact now
      · exact ih reply now fates.tail

/-- The rule of `?`: an error goes straight to the postcondition. -/
theorem wp_except_bind {ε : Type} {p : ExceptT ε (Program Op Reply) α}
    {f : α → ExceptT ε (Program Op Reply) β} {post : Except ε β → σ → Prop} {s : σ} :
    (p >>= f).run.wp D post crash s ↔
      p.run.wp D (fun r s => match r with
        | .ok a => (f a).run.wp D post crash s
        | .error e => post (.error e) s) crash s := by
  rw [ExceptT.run_bind, wp_bind]
  constructor <;>
  · refine fun holds => wp_mono holds ?_ fun _ crashed => crashed
    rintro (e | a) s' now <;> exact now

end Rules

/-! ### Code that stops at its first error -/

section Errors

variable {ε ε' : Type}

/-- A program with a result, as a step of code that stops at its first error. -/
def attempt (p : Program Op Reply (Except ε α)) : ExceptT ε (Program Op Reply) α := ExceptT.mk p

/-- `map_err(|_| e)`. -/
def failWith (e : ε') (p : ExceptT ε (Program Op Reply) α) : ExceptT ε' (Program Op Reply) α :=
  ExceptT.mk (p.run >>= fun r => match r with
    | .ok a => Pure.pure (.ok a)
    | .error _ => Pure.pure (.error e))

/-- `map_err(f)`. -/
def mapErr (f : ε → ε') (p : ExceptT ε (Program Op Reply) α) : ExceptT ε' (Program Op Reply) α :=
  ExceptT.mk (p.run >>= fun r => match r with
    | .ok a => Pure.pure (.ok a)
    | .error e => Pure.pure (.error (f e)))

/-- `if c { return Err(e) }`. -/
def failIf (c : Prop) [Decidable c] (e : ε) : ExceptT ε (Program Op Reply) Unit :=
  if c then throw e else Pure.pure ()

variable {D : Device Op Reply φ σ} {crash : σ → Prop}

@[simp] theorem wp_except_pure {a : α} {post : Except ε α → σ → Prop} {s : σ} :
    (Pure.pure a : ExceptT ε (Program Op Reply) α).run.wp D post crash s ↔ post (.ok a) s := Iff.rfl

@[simp] theorem wp_throw {e : ε} {post : Except ε α → σ → Prop} {s : σ} :
    (throw e : ExceptT ε (Program Op Reply) α).run.wp D post crash s ↔ post (.error e) s := Iff.rfl

/-- A program without errors of its own, run inside code that stops at its first error. -/
theorem wp_except_lift {p : Program Op Reply α} {post : Except ε α → σ → Prop} {s : σ} :
    (liftM p : ExceptT ε (Program Op Reply) α).run.wp D post crash s ↔
      p.wp D (fun a s => post (.ok a) s) crash s := by
  show (p >>= fun a => Pure.pure (Except.ok a)).wp D post crash s ↔ _
  rw [wp_bind]
  exact Iff.rfl

@[simp] theorem wp_failIf {c : Prop} [Decidable c] {e : ε} {post : Except ε Unit → σ → Prop}
    {s : σ} : (failIf c e : ExceptT ε (Program Op Reply) Unit).run.wp D post crash s ↔
      (c → post (.error e) s) ∧ (¬c → post (.ok ()) s) := by
  unfold failIf
  split
  · rw [wp_throw]
    simp_all
  · rw [wp_except_pure]
    simp_all

@[simp] theorem run_attempt (p : Program Op Reply (Except ε α)) : (attempt p).run = p := rfl

theorem wp_failWith {e : ε'} {p : ExceptT ε (Program Op Reply) α}
    {post : Except ε' α → σ → Prop} {s : σ} :
    (failWith e p).run.wp D post crash s ↔
      p.run.wp D (fun r s => match r with
        | .ok a => post (.ok a) s
        | .error _ => post (.error e) s) crash s := by
  rw [failWith, ExceptT.run_mk, wp_bind]
  constructor <;>
  · refine fun holds => wp_mono holds ?_ fun _ crashed => crashed
    rintro (e | a) s' now <;> exact now

theorem wp_mapErr {f : ε → ε'} {p : ExceptT ε (Program Op Reply) α}
    {post : Except ε' α → σ → Prop} {s : σ} :
    (mapErr f p).run.wp D post crash s ↔
      p.run.wp D (fun r s => match r with
        | .ok a => post (.ok a) s
        | .error e => post (.error (f e)) s) crash s := by
  rw [mapErr, ExceptT.run_mk, wp_bind]
  constructor <;>
  · refine fun holds => wp_mono holds ?_ fun _ crashed => crashed
    rintro (e | a) s' now <;> exact now

end Errors

/-! ### The run in which nothing goes wrong -/

/-- The device at its default fate. -/
def calm [Inhabited φ] (D : Device Op Reply φ σ) : Device Op Reply Unit σ :=
  fun op _ s => D op default s

theorem exec_calm [Inhabited φ] (D : Device Op Reply φ σ) (p : Program Op Reply α) (s : σ) :
    p.exec D [] s = p.exec (calm D) [] s := by
  induction p generalizing s with
  | pure value => rfl
  | panic => rfl
  | request op next ih =>
      simp only [exec, calm, List.headD_nil, List.tail_nil]
      rcases D op default s with ⟨_ | reply, s'⟩
      · rfl
      · exact ih reply s'

/-- On a calm device that does not crash, the run returns into its postcondition. -/
theorem returns_of_wp [Inhabited φ] {D : Device Op Reply φ σ} {p : Program Op Reply α}
    {post : α → σ → Prop} {s : σ} (holds : p.wp (calm D) post (fun _ => False) s) :
    ∃ value s', p.exec D [] s = (.returned value, s') ∧ post value s' := by
  have run := exec_of_wp holds []
  rw [exec_calm]
  revert run
  rcases p.exec (calm D) [] s with ⟨value | _ | _, s'⟩
  · exact fun post => ⟨value, s', rfl, post⟩
  · exact False.elim
  · exact False.elim

/-! ### What was asked -/

/-- A device that also records the requests it answered and its replies. -/
def traced (D : Device Op Reply φ σ) : Device Op Reply φ (σ × List (Σ op, Reply op)) :=
  fun op fate s =>
    match D op fate s.1 with
    | (some reply, s') => (some reply, s', s.2 ++ [⟨op, reply⟩])
    | (none, s') => (none, s', s.2)

/-- The requests a run made, with their replies. -/
def trace [Inhabited φ] (D : Device Op Reply φ σ) (p : Program Op Reply α) (fates : List φ) (s : σ) :
    List (Σ op, Reply op) :=
  (p.exec (traced D) fates (s, [])).2.2

/-- Recording changes nothing. -/
theorem exec_traced [Inhabited φ] (D : Device Op Reply φ σ) (p : Program Op Reply α)
    (fates : List φ) (s : σ) (seen : List (Σ op, Reply op)) :
    (p.exec (traced D) fates (s, seen)).1 = (p.exec D fates s).1 ∧
      (p.exec (traced D) fates (s, seen)).2.1 = (p.exec D fates s).2 := by
  induction p generalizing fates s seen with
  | pure value => exact ⟨rfl, rfl⟩
  | panic => exact ⟨rfl, rfl⟩
  | request op next ih =>
      simp only [exec, traced]
      rcases D op (fates.headD default) s with ⟨_ | reply, s'⟩
      · exact ⟨rfl, rfl⟩
      · exact ih reply fates.tail s' _

/-- What a program's trace has to do with its result, on a device of which nothing is known. -/
theorem trace_of_wp [Inhabited φ] {D : Device Op Reply φ σ} {p : Program Op Reply α}
    {post : α → σ × List (Σ op, Reply op) → Prop} {s s' : σ} {value : α} {fates : List φ}
    (holds : p.wp (traced D) post (fun _ => True) (s, []))
    (run : p.exec D fates s = (.returned value, s')) : post value (s', p.trace D fates s) := by
  have ends := exec_of_wp holds fates
  have same := exec_traced D p fates s []
  rw [run] at same
  unfold trace
  revert ends same
  rcases p.exec (traced D) fates (s, []) with ⟨outcome, last, seen⟩
  rintro ends ⟨rfl, same⟩
  dsimp only at same ends ⊢
  subst same
  exact ends

end Program

end Jbuu.Library
