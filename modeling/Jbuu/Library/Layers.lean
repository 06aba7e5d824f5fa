/-
# Library.Layers — a program whose requests are programs over a lower device

`interpret` carries out each request of a program by a program over other requests: a
layer built on a lower one. `wp_interpret` is the refinement rule: where every handler
does on the lower device what the upper device can do, what holds of the program on the
upper device holds of the interpreted one on the lower, with nothing unfolded.
`wp_interpret_meets` is the same by specifications, crashes included, and `exec_simulates`
relates the runs of one program on two devices.

A `Service` is a device that answers every request in one way; `logged` keeps a log.
-/
import Jbuu.Library.Program

namespace Jbuu.Library

set_option autoImplicit false

/-- The reply to a request and the state after it. -/
abbrev Service (Op : Type) (Reply : Op → Type) (σ : Type) := (op : Op) → σ → Reply op × σ

/-- A service leaves nothing to chance. -/
def Service.device {Op : Type} {Reply : Op → Type} {σ : Type} (S : Service Op Reply σ) :
    Device Op Reply Unit σ :=
  fun op _ s => (some (S op s).1, (S op s).2)

/-- The service with a log of what `entry` makes of the requests. -/
def Service.logged {Op : Type} {Reply : Op → Type} {σ ω : Type} (S : Service Op Reply σ)
    (entry : Op → Option ω) : Service Op Reply (σ × List ω) :=
  fun op s =>
    ((S op s.1).1, (S op s.1).2,
      match entry op with
      | none => s.2
      | some w => s.2 ++ [w])

namespace Program

variable {Op : Type} {Reply : Op → Type} {Op' : Type} {Reply' : Op' → Type}
variable {φ φ' σ α β : Type}

/-- A run on a service returns, and into its postcondition. -/
theorem returns_of_service {S : Service Op Reply σ} {p : Program Op Reply α}
    {post : α → σ → Prop} {s : σ} (holds : p.wp S.device post (fun _ => False) s) :
    ∃ value s', p.exec S.device [] s = (.returned value, s') ∧ post value s' :=
  returns_of_wp holds

/-- The log changes nothing. -/
theorem wp_of_logged {ω : Type} {S : Service Op Reply σ} {entry : Op → Option ω}
    {p : Program Op Reply α} {post : α → σ → Prop} {crash : σ → Prop} {s : σ} {log : List ω}
    (holds : p.wp (S.logged entry).device (fun value t => post value t.1) (fun t => crash t.1)
      (s, log)) : p.wp S.device post crash s := by
  induction p generalizing s log with
  | pure value => exact holds
  | panic => exact holds
  | request op next ih => exact fun fate => ih _ (holds fate)

/-- The program with each request carried out by `handle`. -/
def interpret (handle : (op : Op) → Program Op' Reply' (Reply op)) :
    Program Op Reply α → Program Op' Reply' α
  | .pure value => .pure value
  | .panic => .panic
  | .request op next => handle op >>= fun reply => (next reply).interpret handle

section Laws

variable {handle : (op : Op) → Program Op' Reply' (Reply op)}

@[simp] theorem interpret_pure {value : α} :
    (Pure.pure value : Program Op Reply α).interpret handle = Pure.pure value := rfl

@[simp] theorem interpret_call {op : Op} : (call op).interpret handle = handle op :=
  bind_pure (handle op)

@[simp] theorem interpret_bind {p : Program Op Reply α} {f : α → Program Op Reply β} :
    (p >>= f).interpret handle = p.interpret handle >>= fun a => (f a).interpret handle := by
  induction p with
  | pure value => rfl
  | panic => rfl
  | request op next ih =>
      show (handle op >>= fun reply => ((next reply) >>= f).interpret handle) = _
      simp only [ih]
      exact (bind_assoc (handle op) _ _).symm

/-- Two layers are one. -/
theorem interpret_interpret {Op'' : Type} {Reply'' : Op'' → Type}
    {lower : (op : Op') → Program Op'' Reply'' (Reply' op)} (p : Program Op Reply α) :
    (p.interpret handle).interpret lower = p.interpret fun op => (handle op).interpret lower := by
  induction p with
  | pure value => rfl
  | panic => rfl
  | request op next ih =>
      show (handle op >>= fun reply => (next reply).interpret handle).interpret lower = _
      simp only [interpret_bind, ih]
      rfl

/-! The rules for code that stops at its first error. -/

section Errors

variable {ε ε' : Type} {D : Device Op' Reply' φ σ} {crash : σ → Prop} {s : σ}

theorem wp_interpret_except_bind {p : ExceptT ε (Program Op Reply) α}
    {f : α → ExceptT ε (Program Op Reply) β} {post : Except ε β → σ → Prop} :
    ((p >>= f).run.interpret handle).wp D post crash s ↔
      (p.run.interpret handle).wp D (fun r s => match r with
        | .ok a => ((f a).run.interpret handle).wp D post crash s
        | .error e => post (.error e) s) crash s := by
  rw [ExceptT.run_bind, interpret_bind, wp_bind]
  constructor <;>
  · refine fun holds => wp_mono holds ?_ fun _ crashed => crashed
    rintro (e | a) s' now <;> exact now

theorem wp_interpret_failWith {e : ε'} {p : ExceptT ε (Program Op Reply) α}
    {post : Except ε' α → σ → Prop} :
    ((failWith e p).run.interpret handle).wp D post crash s ↔
      (p.run.interpret handle).wp D (fun r s => match r with
        | .ok a => post (.ok a) s
        | .error _ => post (.error e) s) crash s := by
  rw [failWith, ExceptT.run_mk, interpret_bind, wp_bind]
  constructor <;>
  · refine fun holds => wp_mono holds ?_ fun _ crashed => crashed
    rintro (e | a) s' now <;> exact now

theorem wp_interpret_lift {p : Program Op Reply α} {post : Except ε α → σ → Prop} :
    ((liftM p : ExceptT ε (Program Op Reply) α).run.interpret handle).wp D post crash s ↔
      (p.interpret handle).wp D (fun a s => post (.ok a) s) crash s := by
  show ((p >>= fun a => Pure.pure (Except.ok a)).interpret handle).wp D post crash s ↔ _
  rw [interpret_bind, wp_bind]
  exact Iff.rfl

@[simp] theorem interpret_failIf {c : Prop} [Decidable c] {e : ε} :
    (failIf c e : ExceptT ε (Program Op Reply) Unit).run.interpret handle =
      (failIf c e : ExceptT ε (Program Op' Reply') Unit).run := by
  unfold failIf
  split <;> rfl

end Errors

end Laws

/-- **Refinement**, under an invariant of the state the two devices share. -/
theorem wp_interpret {D : Device Op Reply φ σ} {D' : Device Op' Reply' φ' σ}
    {handle : (op : Op) → Program Op' Reply' (Reply op)} {inv : σ → Prop}
    {post : α → σ → Prop} {crash crash' : σ → Prop}
    (refines : ∀ op s, inv s → (handle op).wp D' (fun reply s' =>
      inv s' ∧ ∃ fate, D op fate s = (some reply, s')) crash' s)
    {p : Program Op Reply α} {s : σ} (start : inv s) (upper : p.wp D post crash s) :
    (p.interpret handle).wp D' (fun value s' => inv s' ∧ post value s') crash' s := by
  induction p generalizing s with
  | pure value => exact ⟨start, upper⟩
  | panic => exact upper
  | request op next ih =>
      rw [interpret, wp_bind]
      refine wp_mono (refines op s start) ?_ fun _ crashed => crashed
      rintro reply s' ⟨kept, fate, answered⟩
      have rest := upper fate
      rw [answered] at rest
      exact ih reply kept rest

/-- **Refinement, by specifications**: every handler meets what its request meets. -/
theorem wp_interpret_meets {D : Device Op Reply φ σ} {D' : Device Op' Reply' φ' σ}
    {handle : (op : Op) → Program Op' Reply' (Reply op)} {post : α → σ → Prop} {crash : σ → Prop}
    (meets : ∀ op s (post : Reply op → σ → Prop), (call op).wp D post crash s →
      (handle op).wp D' post crash s) {p : Program Op Reply α} {s : σ} (upper : p.wp D post crash s) :
    (p.interpret handle).wp D' post crash s := by
  induction p generalizing s with
  | pure value => exact upper
  | panic => exact upper
  | request op next ih =>
      rw [interpret, wp_bind]
      apply meets
      intro fate
      have now := upper fate
      revert now
      rcases D op fate s with ⟨_ | reply, s'⟩
      · exact id
      · exact fun rest => ih reply rest

/-- **Simulation**: two devices that answer alike from related states run a program alike. -/
theorem exec_simulates {τ ψ : Type} [Inhabited φ] [Inhabited ψ] {D : Device Op Reply φ σ}
    {E : Device Op Reply ψ τ} {R : σ → τ → Prop} (alike : ∀ op s t, R s t → ∃ answer s' t',
      D op default s = (answer, s') ∧ E op default t = (answer, t') ∧ R s' t') (p : Program Op Reply α)
    {s : σ} {t : τ} (related : R s t) :
    (p.exec D [] s).1 = (p.exec E [] t).1 ∧ R (p.exec D [] s).2 (p.exec E [] t).2 := by
  induction p generalizing s t with
  | pure value => exact ⟨rfl, related⟩
  | panic => exact ⟨rfl, related⟩
  | request op next ih =>
      obtain ⟨answer, s', t', left, right, kept⟩ := alike op s t related
      simp only [exec, List.headD_nil, List.tail_nil, left, right]
      cases answer with
      | none => exact ⟨rfl, kept⟩
      | some reply => exact ih reply kept

end Program

end Jbuu.Library
