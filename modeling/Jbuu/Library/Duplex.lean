/-
# Library.Duplex — two programs at the ends of a channel

A `Half` is a program with a state of its own and an inbox. Its `Port` says what each request
is to it: a frame sent, the next frame received, or a matter of its own state. Two halves take
turns in any order; a frame sent goes to the end of the other's inbox, so the channel loses
nothing and keeps the order, and one that is to receive waits while its inbox is empty.

The two are `agents`: their steps commute, so one order decides for all (`Leads.settles`). Such
an order is put together of what a half does before it has to wait (`Half.Goes`).
-/
import Jbuu.Library.Agents
import Jbuu.Library.Layers

namespace Jbuu.Library

set_option autoImplicit false

/-- What a request is to a half of a channel. -/
inductive Use (φ σ ρ : Type) where
  | send (frame : φ) (reply : ρ)
  | receive (reply : φ → ρ)
  /-- `none` where the half is gone. -/
  | own (answer : σ → Option (ρ × σ))

abbrev Port (Op : Type) (Reply : Op → Type) (φ σ : Type) := (op : Op) → Use φ σ (Reply op)

structure Half (Op : Type) (Reply : Op → Type) (φ σ α : Type) where
  program : Program Op Reply α
  own : σ
  inbox : List φ

/-- The two halves of a channel. -/
inductive End where
  | left
  | right
  deriving DecidableEq, Repr

structure Duplex (Op : Type) (Reply : Op → Type) (φ σ α : Type) where
  left : Half Op Reply φ σ α
  right : Half Op Reply φ σ α

variable {Op : Type} {Reply : Op → Type} {φ σ α β : Type}

namespace Half

/-- One request: the frames it sends, and the half after it. -/
def act (port : Port Op Reply φ σ) (h : Half Op Reply φ σ α) : Option (List φ × Half Op Reply φ σ α) :=
  match h.program with
  | .pure _ => none
  | .panic => none
  | .request op next =>
      match port op with
      | .send frame reply => some ([frame], { h with program := next reply })
      | .receive reply =>
          match h.inbox with
          | [] => none
          | frame :: rest => some ([], { h with program := next (reply frame), inbox := rest })
      | .own answer => (answer h.own).map fun out => ([], { h with program := next out.1, own := out.2 })

def accept (h : Half Op Reply φ σ α) (frames : List φ) : Half Op Reply φ σ α :=
  { h with inbox := h.inbox ++ frames }

theorem accept_accept (h : Half Op Reply φ σ α) (first second : List φ) :
    (h.accept first).accept second = h.accept (first ++ second) := by
  simp [accept]

/-- What arrives meanwhile changes nothing of a step. -/
theorem act_accept {port : Port Op Reply φ σ} {h next : Half Op Reply φ σ α} {out : List φ}
    (acts : h.act port = some (out, next)) (frames : List φ) :
    (h.accept frames).act port = some (out, next.accept frames) := by
  obtain ⟨program, own, inbox⟩ := h
  cases program with
  | pure value => cases acts
  | panic => cases acts
  | request op rest =>
      simp only [act, accept] at acts ⊢
      cases use : port op with
      | send frame reply =>
          rw [use] at acts
          cases acts
          rfl
      | receive reply =>
          rw [use] at acts
          cases inbox with
          | nil => cases acts
          | cons frame later =>
              cases acts
              rfl
      | own answer =>
          rw [use] at acts
          obtain ⟨given, answered, same⟩ := Option.map_eq_some_iff.mp acts
          cases same
          simp [answered]

/-- Steps taken with what is in the inbox, and the frames they send. -/
inductive Runs (port : Port Op Reply φ σ) : Half Op Reply φ σ α → List φ → Half Op Reply φ σ α → Prop
  | refl (h : Half Op Reply φ σ α) : Runs port h [] h
  | step {h mid next : Half Op Reply φ σ α} {out later : List φ} (acts : h.act port = some (out, mid))
      (rest : Runs port mid later next) : Runs port h (out ++ later) next

/-- On its own the half comes to `post`, of the frames it sent and what is left of it. -/
def Goes (port : Port Op Reply φ σ) (h : Half Op Reply φ σ α)
    (post : List φ → Half Op Reply φ σ α → Prop) : Prop :=
  ∃ out next, h.Runs port out next ∧ post out next

section Rules

variable {port : Port Op Reply φ σ} {own : σ} {inbox : List φ}
  {post : List φ → Half Op Reply φ σ α → Prop}

theorem goes_stop {h : Half Op Reply φ σ α} (now : post [] h) : h.Goes port post :=
  ⟨[], h, .refl h, now⟩

theorem goes_step {h mid : Half Op Reply φ σ α} {out : List φ} (acts : h.act port = some (out, mid))
    (rest : mid.Goes port fun later => post (out ++ later)) : h.Goes port post := by
  obtain ⟨later, next, runs, ends⟩ := rest
  exact ⟨out ++ later, next, .step acts runs, ends⟩

variable {op : Op} {f : Reply op → Program Op Reply α}

theorem goes_send {frame : φ} {reply : Reply op} (use : port op = .send frame reply)
    (rest : Goes port ⟨f reply, own, inbox⟩ fun later => post (frame :: later)) :
    Goes port ⟨.request op f, own, inbox⟩ post := by
  have acts : act port ⟨.request op f, own, inbox⟩ = some ([frame], ⟨f reply, own, inbox⟩) := by
    simp [act, use]
  exact goes_step acts rest

theorem goes_receive {reply : φ → Reply op} {frame : φ} (use : port op = .receive reply)
    (rest : Goes port ⟨f (reply frame), own, inbox⟩ post) :
    Goes port ⟨.request op f, own, frame :: inbox⟩ post := by
  have acts : act port ⟨.request op f, own, frame :: inbox⟩ = some ([], ⟨f (reply frame), own, inbox⟩) := by
    simp [act, use]
  exact goes_step acts rest

theorem goes_own {answer : σ → Option (Reply op × σ)} {reply : Reply op} {own' : σ}
    (use : port op = .own answer) (answered : answer own = some (reply, own'))
    (rest : Goes port ⟨f reply, own', inbox⟩ post) :
    Goes port ⟨.request op f, own, inbox⟩ post := by
  have acts : act port ⟨.request op f, own, inbox⟩ = some ([], ⟨f reply, own', inbox⟩) := by
    simp [act, use, answered]
  exact goes_step acts rest

/-- A layer of which each request is a matter of the half's own state, as `D` answers it. -/
theorem goes_interpret {Op' : Type} {Reply' : Op' → Type} {D : Device Op' Reply' Unit σ}
    {handle : (op : Op') → Program Op Reply (Reply' op)}
    (handles : ∀ op own reply own', D op () own = (some reply, own') →
      ∀ f : Reply' op → Program Op Reply α, Goes port ⟨f reply, own', inbox⟩ post →
        Goes port ⟨handle op >>= f, own, inbox⟩ post)
    {p : Program Op' Reply' β} {f : β → Program Op Reply α}
    (holds : p.wp D (fun value own => Goes port ⟨f value, own, inbox⟩ post) (fun _ => False) own) :
    Goes port ⟨p.interpret handle >>= f, own, inbox⟩ post := by
  induction p generalizing own with
  | pure value => exact holds
  | panic => exact holds.elim
  | request op next ih =>
      have now := holds ()
      have handled := handles op own
      rw [Program.interpret, bind_assoc]
      generalize D op () own = answer at now handled
      obtain ⟨given, own'⟩ := answer
      cases given with
      | none => exact now.elim
      | some reply => exact handled reply own' rfl _ (ih reply now)

end Rules

/-- Nothing more to do. -/
theorem act_pure {port : Port Op Reply φ σ} {h : Half Op Reply φ σ α} {value : α}
    (finished : h.program = pure value) : h.act port = none := by
  obtain ⟨program, own, inbox⟩ := h
  obtain rfl : program = .pure value := finished
  rfl

end Half

/-! ## Both halves -/

namespace Duplex

def step (port : Port Op Reply φ σ) : End → Duplex Op Reply φ σ α → Option (Duplex Op Reply φ σ α)
  | .left, d => (d.left.act port).map fun out => ⟨out.2, d.right.accept out.1⟩
  | .right, d => (d.right.act port).map fun out => ⟨d.left.accept out.1, out.2⟩

theorem step_left_right {port : Port Op Reply φ σ} {d byLeft byRight : Duplex Op Reply φ σ α}
    (left : step port .left d = some byLeft) (right : step port .right d = some byRight) :
    ∃ both, step port .right byLeft = some both ∧ step port .left byRight = some both := by
  obtain ⟨⟨sent, l⟩, actsLeft, rfl⟩ := Option.map_eq_some_iff.mp left
  obtain ⟨⟨answered, r⟩, actsRight, rfl⟩ := Option.map_eq_some_iff.mp right
  refine ⟨⟨l.accept answered, r.accept sent⟩, ?_, ?_⟩
  · simp [step, Half.act_accept actsRight sent]
  · simp [step, Half.act_accept actsLeft answered]

/-- The two ends as agents on the channel. -/
def agents (port : Port Op Reply φ σ) : Agents End (Duplex Op Reply φ σ α) where
  step := step port
  commute := by
    intro i j d first second different byFirst bySecond
    cases i with
    | left =>
        cases j with
        | left => exact absurd rfl different
        | right => exact step_left_right byFirst bySecond
    | right =>
        cases j with
        | left =>
            obtain ⟨both, later, sooner⟩ := step_left_right bySecond byFirst
            exact ⟨both, sooner, later⟩
        | right => exact absurd rfl different

/-- Some order of turns leads to `post`. -/
def Leads (port : Port Op Reply φ σ) (d : Duplex Op Reply φ σ α) (post : Duplex Op Reply φ σ α → Prop) :
    Prop :=
  ∃ n e, (agents port).Reaches n d e ∧ post e

/-- Both programs have returned. -/
structure Finished (d : Duplex Op Reply φ σ α) (left right : α) : Prop where
  left : d.left.program = pure left
  right : d.right.program = pure right

section Rules

variable {port : Port Op Reply φ σ} {l r : Half Op Reply φ σ α} {post : Duplex Op Reply φ σ α → Prop}

theorem leads_done {d : Duplex Op Reply φ σ α} (now : post d) : d.Leads port post := ⟨0, d, .refl d, now⟩

theorem leads_left (goes : l.Goes port fun out l' => Leads port ⟨l', r.accept out⟩ post) :
    Leads port ⟨l, r⟩ post := by
  obtain ⟨out, l', runs, n, e, reaches, ends⟩ := goes
  suffices there : ∃ n, (agents port).Reaches n ⟨l, r⟩ e by
    obtain ⟨n, reaches⟩ := there
    exact ⟨n, e, reaches, ends⟩
  induction runs generalizing r with
  | refl h => exact ⟨n, by simpa [Half.accept] using reaches⟩
  | @step h mid next sent later acts rest ih =>
      have onward : (agents port).Reaches n ⟨next, (r.accept sent).accept later⟩ e := by
        rwa [Half.accept_accept]
      obtain ⟨m, shorter⟩ := ih onward
      have first : (agents port).step .left ⟨h, r⟩ = some ⟨mid, r.accept sent⟩ := by
        simp [agents, step, acts]
      exact ⟨m + 1, .step first shorter⟩

theorem leads_right (goes : r.Goes port fun out r' => Leads port ⟨l.accept out, r'⟩ post) :
    Leads port ⟨l, r⟩ post := by
  obtain ⟨out, r', runs, n, e, reaches, ends⟩ := goes
  suffices there : ∃ n, (agents port).Reaches n ⟨l, r⟩ e by
    obtain ⟨n, reaches⟩ := there
    exact ⟨n, e, reaches, ends⟩
  induction runs generalizing l with
  | refl h => exact ⟨n, by simpa [Half.accept] using reaches⟩
  | @step h mid next sent later acts rest ih =>
      have onward : (agents port).Reaches n ⟨(l.accept sent).accept later, next⟩ e := by
        rwa [Half.accept_accept]
      obtain ⟨m, shorter⟩ := ih onward
      have first : (agents port).step .right ⟨l, h⟩ = some ⟨l.accept sent, mid⟩ := by
        simp [agents, step, acts]
      exact ⟨m + 1, .step first shorter⟩

/-- **One order decides for all**: where it ends with both returned, every fair order ends so. -/
theorem Leads.settles {d : Duplex Op Reply φ σ α}
    (leads : d.Leads port fun e => post e ∧ ∃ left right, e.Finished left right) :
    ∃ e, (agents port).Settles d e ∧ post e := by
  obtain ⟨n, e, reaches, holds, left, right, finished⟩ := leads
  refine ⟨e, Agents.settles reaches ?_, holds⟩
  intro i
  cases i with
  | left => simp [agents, step, Half.act_pure finished.left]
  | right => simp [agents, step, Half.act_pure finished.right]

end Rules

end Duplex

end Jbuu.Library
