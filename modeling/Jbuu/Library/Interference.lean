/-
# Library.Interference — a program on a device that others move between its requests

`Device.amid D rely ok` is the device `D` as one of several processes sees it. Before each
request the others may have moved the state along `rely`, a preorder; the request then has
to meet `ok`, or the process is stopped. `wp` on this device, with `False` for a stop, so
says that every request meets `ok` whatever the others do, and all rules of `wp` apply.

`wp_amid_call` reads one request; `wp_amid_moves` is stability, `wp_amid_step` what is left
of the judgement when the process makes its next request: the two facts with which an
invariant of the interleaved machine is proved.
-/
import Jbuu.Library.Program
import Mathlib.Order.Defs.Unbundled

namespace Jbuu.Library

set_option autoImplicit false

variable {Op : Type} {Reply : Op → Type} {φ σ α : Type}

open Classical in
/-- The device between the moves of others. The fate brings the state they leave. -/
noncomputable def Device.amid (D : Device Op Reply φ σ) (rely : σ → σ → Prop)
    (ok : Op → φ → σ → Prop) : Device Op Reply (φ × σ) σ :=
  fun op fate s =>
    let now := if rely s fate.2 then fate.2 else s
    if ok op fate.1 now then D op fate.1 now else (none, now)

namespace Program

/-- The request a program makes next. -/
def asked : Program Op Reply α → Option Op
  | .request op _ => some op
  | _ => none

variable {D : Device Op Reply φ σ} {rely : σ → σ → Prop} {ok : Op → φ → σ → Prop}
  {post : α → σ → Prop} {s : σ}

theorem wp_amid_request [Std.Refl rely] {op : Op} {next : Reply op → Program Op Reply α} :
    (request op next).wp (D.amid rely ok) post (fun _ => False) s ↔
      ∀ fate now, rely s now → ok op fate now ∧
        match D op fate now with
        | (some reply, s') => (next reply).wp (D.amid rely ok) post (fun _ => False) s'
        | (none, _) => False := by
  classical
  constructor
  · intro holds fate now moved
    have asked := holds (fate, now)
    simp only [Device.amid] at asked
    rw [if_pos moved] at asked
    by_cases fine : ok op fate now
    · rw [if_pos fine] at asked
      exact ⟨fine, asked⟩
    · rw [if_neg fine] at asked
      exact asked.elim
  · rintro holds ⟨fate, now⟩
    simp only [Device.amid]
    have moved : rely s (if rely s now then now else s) := by
      split
      · assumption
      · exact Std.Refl.refl s
    obtain ⟨fine, asked⟩ := holds fate _ moved
    rw [if_pos fine]
    exact asked

theorem wp_amid_call [Std.Refl rely] {op : Op} {post : Reply op → σ → Prop} :
    (call op).wp (D.amid rely ok) post (fun _ => False) s ↔
      ∀ fate now, rely s now → ok op fate now ∧
        match D op fate now with
        | (some reply, s') => post reply s'
        | (none, _) => False := wp_amid_request

/-- What holds of a program goes on to hold while others move. -/
theorem wp_amid_moves [Std.Refl rely] [IsTrans σ rely] {p : Program Op Reply α} {s' : σ}
    (stable : ∀ value, post value s → post value s') (moved : rely s s')
    (holds : p.wp (D.amid rely ok) post (fun _ => False) s) :
    p.wp (D.amid rely ok) post (fun _ => False) s' := by
  cases p with
  | pure value => exact stable value holds
  | panic => exact holds
  | request op next =>
      rw [wp_amid_request] at holds ⊢
      exact fun fate now later => holds fate now (IsTrans.trans _ _ _ moved later)

/-- What holds of a program about to make a request, and of the rest after it. -/
theorem wp_amid_step [Std.Refl rely] {op : Op} {next : Reply op → Program Op Reply α}
    (holds : (request op next).wp (D.amid rely ok) post (fun _ => False) s) (fate : φ) :
    ok op fate s ∧
      match D op fate s with
      | (some reply, s') => (next reply).wp (D.amid rely ok) post (fun _ => False) s'
      | (none, _) => False :=
  wp_amid_request.mp holds fate s (Std.Refl.refl s)

end Program

end Jbuu.Library
