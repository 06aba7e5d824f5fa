/-
# Library.WriteLoop — writing all of a buffer through partial writes

A writer takes some of what it is offered and reports how many elements it took, or it fails.
A `Loop` offers it a part of what is left, looks at the report and goes on, tries again or
stops. The writer's answers are one infinite schedule, and `after` is the state when so many
of them are used up; the loop returned where `result` is `some`.

A `Lawful` loop advances by what the writer took, so that what reached the medium and what
is left are always the whole buffer (`Lawful.after_delivers`). Whether it returns at all is a
matter of what it makes of a report of zero: a `Careful` loop takes it for an error and
is `Complete` under every schedule (`careful_complete`), a `Trusting` one goes on, and
`trusting_complete_iff` says under which schedules it is.
-/
import Mathlib.Data.List.Infix
import Mathlib.Order.Monotone.Basic

namespace Jbuu.Library.WriteLoop

set_option autoImplicit false

variable {α ι ε σ : Type}

/-! ## Media and writers -/

/-- What the elements are written to. Two writes are as good as one of both. -/
structure Medium (α σ : Type) where
  put : List α → σ → σ
  put_nil : ∀ s, put [] s = s
  put_append : ∀ front back s, put (front ++ back) s = put back (put front s)

/-- A stream only grows. -/
def Medium.stream (α : Type) : Medium α (List α) where
  put := fun elements s => s ++ elements
  put_nil := by simp
  put_append := by simp

/-- The answers of a writer, call by call: `ok n` takes what it can of the offer up to `n`.
Only finitely many of the errors are interruptions. -/
structure Schedule (ι : Type) (interrupted : ι → Prop) where
  answers : Nat → Except ι Nat
  settles : ∃ last, ∀ k, last ≤ k → ∀ e, answers k = .error e → ¬interrupted e

/-- What the writer tells its caller. It never reports more than it was offered. -/
def report (offered : List α) : Except ι Nat → Except ι Nat
  | .ok n => .ok (min n offered.length)
  | .error e => .error e

/-- What the writer took. -/
def took (offered : List α) : Except ι Nat → List α
  | .ok n => offered.take n
  | .error _ => []

@[simp] theorem report_ok (offered : List α) (n : Nat) :
    report offered (.ok n : Except ι Nat) = .ok (min n offered.length) := rfl

@[simp] theorem report_error (offered : List α) (e : ι) :
    report offered (.error e) = .error e := rfl

@[simp] theorem took_ok (offered : List α) (n : Nat) :
    took offered (.ok n : Except ι Nat) = offered.take n := rfl

@[simp] theorem took_error (offered : List α) (e : ι) : took offered (.error e) = [] := rfl

theorem ok_of_ne_error {answer : Except ι Nat} (fine : ∀ e, answer ≠ .error e) : ∃ n, answer = .ok n := by
  cases answer with
  | error e => exact absurd rfl (fine e)
  | ok n => exact ⟨n, rfl⟩

theorem took_of_report {offered : List α} {answer : Except ι Nat} {n : Nat}
    (reported : report offered answer = .ok n) : took offered answer = offered.take n := by
  cases answer with
  | error e => nomatch reported
  | ok m =>
      obtain rfl : min m offered.length = n := by simpa using reported
      simp [List.take_eq_take_iff]

theorem took_of_report_error {offered : List α} {answer : Except ι Nat} {e : ι}
    (reported : report offered answer = .error e) : took offered answer = [] := by
  cases answer with
  | error e => rfl
  | ok n => nomatch reported

theorem report_le {offered : List α} {answer : Except ι Nat} {n : Nat}
    (reported : report offered answer = .ok n) : n ≤ offered.length := by
  cases answer with
  | error e => nomatch reported
  | ok m =>
      have := Except.ok.inj reported
      omega

theorem take_append_drop_of_prefix {offered rest : List α} (front : offered <+: rest) {n : Nat}
    (few : n ≤ offered.length) : offered.take n ++ rest.drop n = rest := by
  obtain ⟨later, rfl⟩ := front
  rw [List.drop_append_of_le_length few, ← List.append_assoc, List.take_append_drop]

theorem took_front (offered : List α) (answer : Except ι Nat) : took offered answer <+: offered := by
  cases answer with
  | error e => exact List.nil_prefix
  | ok n => exact List.take_prefix n offered

/-! ## Loops -/

inductive Reaction (ε : Type) where
  | advance (n : Nat)
  | again
  | stop (error : ε)
  deriving DecidableEq, Repr

/-- What the loop offers of what is left, and what it makes of the report. -/
structure Loop (α ι ε : Type) where
  offer : List α → List α
  react : List α → Except ι Nat → Reaction ε

structure State (α ε σ : Type) where
  rest : List α
  medium : σ
  failed : Option ε
  deriving DecidableEq, Repr

def State.start (data : List α) (medium : σ) : State α ε σ := ⟨data, medium, none⟩

/-- What the loop returned, and what it leaves behind. -/
def State.result (s : State α ε σ) : Option (Except ε Unit × σ) :=
  match s.failed, s.rest with
  | some e, _ => some (.error e, s.medium)
  | none, [] => some (.ok (), s.medium)
  | none, _ :: _ => none

/-- One turn of the loop; nothing happens once it returned. -/
def Loop.turn (loop : Loop α ι ε) (m : Medium α σ) (answer : Except ι Nat) (s : State α ε σ) :
    State α ε σ :=
  match s.result with
  | some _ => s
  | none =>
      let offered := loop.offer s.rest
      let medium := m.put (took offered answer) s.medium
      match loop.react offered (report offered answer) with
      | .advance n => { s with rest := s.rest.drop n, medium := medium }
      | .again => { s with medium := medium }
      | .stop e => { s with medium := medium, failed := some e }

/-- The state when the first `calls` answers are used up. -/
def Loop.after (loop : Loop α ι ε) (m : Medium α σ) (answers : Nat → Except ι Nat)
    (s : State α ε σ) : Nat → State α ε σ
  | 0 => s
  | calls + 1 => loop.turn m (answers calls) (loop.after m answers s calls)

section

variable {loop : Loop α ι ε} {m : Medium α σ} {answers : Nat → Except ι Nat} {s : State α ε σ}

theorem result_eq_none : s.result = none ↔ s.failed = none ∧ s.rest ≠ [] := by
  obtain ⟨rest, medium, failed⟩ := s
  cases failed <;> cases rest <;> simp [State.result]

theorem result_eq_ok {medium : σ} :
    s.result = some (.ok (), medium) ↔ s.failed = none ∧ s.rest = [] ∧ s.medium = medium := by
  obtain ⟨rest, medium, failed⟩ := s
  cases failed <;> cases rest <;> simp [State.result]

theorem turn_of_some {answer : Except ι Nat} (ended : s.result ≠ none) :
    loop.turn m answer s = s := by
  obtain ⟨r, eq⟩ := Option.ne_none_iff_exists'.mp ended
  simp [Loop.turn, eq]

theorem turn_advance {answer : Except ι Nat} {n : Nat} (runs : s.result = none)
    (reacts : loop.react (loop.offer s.rest) (report (loop.offer s.rest) answer) = .advance n) :
    loop.turn m answer s =
      { s with rest := s.rest.drop n, medium := m.put (took (loop.offer s.rest) answer) s.medium } := by
  simp [Loop.turn, runs, reacts]

theorem turn_again {answer : Except ι Nat} (runs : s.result = none)
    (reacts : loop.react (loop.offer s.rest) (report (loop.offer s.rest) answer) = .again) :
    loop.turn m answer s =
      { s with medium := m.put (took (loop.offer s.rest) answer) s.medium } := by
  simp [Loop.turn, runs, reacts]

theorem turn_stop {answer : Except ι Nat} {e : ε} (runs : s.result = none)
    (reacts : loop.react (loop.offer s.rest) (report (loop.offer s.rest) answer) = .stop e) :
    loop.turn m answer s =
      { s with medium := m.put (took (loop.offer s.rest) answer) s.medium, failed := some e } := by
  simp [Loop.turn, runs, reacts]

/-- Once the loop returned, the calls after it change nothing. -/
theorem after_stays {k j : Nat} (le : k ≤ j) (ended : (loop.after m answers s k).result ≠ none) :
    loop.after m answers s j = loop.after m answers s k := by
  induction j, le using Nat.le_induction with
  | base => rfl
  | succ j _ ih =>
      rw [Loop.after, ih]
      exact turn_of_some ended

theorem after_of_result {r : Except ε Unit × σ} (ended : s.result = some r) (calls : Nat) :
    (loop.after m answers s calls).result = some r := by
  rw [after_stays (Nat.zero_le calls) (by simp [Loop.after, ended])]
  exact ended

/-- The first call, and those after it. -/
theorem after_succ (answers : Nat → Except ι Nat) (s : State α ε σ) (calls : Nat) :
    loop.after m answers s (calls + 1) =
      loop.after m (fun k => answers (k + 1)) (loop.turn m (answers 0) s) calls := by
  induction calls with
  | zero => rfl
  | succ k ih => rw [Loop.after, ih, Loop.after]

/-- A loop that still runs ran after every call before. -/
theorem running_before {k j : Nat} (le : k ≤ j)
    (runs : (loop.after m answers s j).result = none) :
    (loop.after m answers s k).result = none := by
  by_contra ended
  rw [after_stays le ended] at runs
  exact ended runs

end

/-! ## What reaches the medium -/

/-- The loop advances by what was reported, and tries again only where nothing was taken. -/
structure Loop.Lawful (loop : Loop α ι ε) : Prop where
  offers : ∀ rest, loop.offer rest <+: rest
  advances : ∀ offered answer n, loop.react offered answer = .advance n → answer = .ok n
  waits : ∀ offered answer, loop.react offered answer = .again → ∃ e, answer = .error e

/-- A front of the data is in the medium; while nothing failed, the rest is all that is not. -/
def Delivered (m : Medium α σ) (data : List α) (medium : σ) (s : State α ε σ) : Prop :=
  ∃ front, front <+: data ∧ s.medium = m.put front medium ∧
    (s.failed = none → front ++ s.rest = data)

section

variable {loop : Loop α ι ε} {m : Medium α σ} {data : List α} {medium : σ} {s : State α ε σ}

theorem Delivered.start (m : Medium α σ) (data : List α) (medium : σ) :
    Delivered m data medium (.start data medium : State α ε σ) :=
  ⟨[], List.nil_prefix, (m.put_nil medium).symm, fun _ => rfl⟩

theorem Delivered.turn (lawful : loop.Lawful) (answer : Except ι Nat)
    (delivered : Delivered m data medium s) : Delivered m data medium (loop.turn m answer s) := by
  cases result : s.result with
  | some r => rwa [turn_of_some (by simp [result])]
  | none =>
      obtain ⟨front, within, kept, whole⟩ := delivered
      have all := whole (result_eq_none.mp result).1
      have offered := lawful.offers s.rest
      have put : m.put (took (loop.offer s.rest) answer) s.medium =
          m.put (front ++ took (loop.offer s.rest) answer) medium := by
        rw [m.put_append, ← kept]
      have longer : front ++ took (loop.offer s.rest) answer <+: data := by
        rw [← all]
        exact (List.prefix_append_right_inj front).mpr ((took_front _ _).trans offered)
      cases reacts : loop.react (loop.offer s.rest) (report (loop.offer s.rest) answer) with
      | advance n =>
          have reported := lawful.advances _ _ n reacts
          rw [turn_advance result reacts]
          refine ⟨_, longer, put, fun _ => ?_⟩
          rw [took_of_report reported, List.append_assoc, ← all,
            take_append_drop_of_prefix offered (report_le reported)]
      | again =>
          obtain ⟨e, failed⟩ := lawful.waits _ _ reacts
          rw [turn_again result reacts]
          refine ⟨front, within, ?_, whole⟩
          rw [took_of_report_error failed, m.put_nil, kept]
      | stop e =>
          rw [turn_stop result reacts]
          exact ⟨_, longer, put, fun alive => nomatch alive⟩

theorem Loop.Lawful.after_delivers (lawful : loop.Lawful) (m : Medium α σ) (data : List α) (medium : σ)
    (answers : Nat → Except ι Nat) (calls : Nat) :
    Delivered m data medium (loop.after m answers (.start data medium) calls) := by
  induction calls with
  | zero => exact .start m data medium
  | succ k ih => exact ih.turn lawful (answers k)

end

/-! ## Complete loops -/

/-- The call returns; where it returns `Ok` the medium is as it should be; and it never
returns `Ok` after a report of zero. A call is given by what it returned when so many answers
are used up. -/
structure Complete (answers : Nat → Except ι Nat) (whole : σ → Prop)
    (call : Nat → Option (Except ε Unit × σ)) : Prop where
  ends : ∃ calls, call calls ≠ none
  delivers : ∀ calls medium, call calls = some (.ok (), medium) → whole medium
  fails_of_zero : ∀ k, call k = none → answers k = .ok 0 →
    ∀ calls medium, call calls ≠ some (.ok (), medium)

/-- The call of a loop on some data. -/
def Loop.call (loop : Loop α ι ε) (m : Medium α σ) (answers : Nat → Except ι Nat) (data : List α)
    (medium : σ) (calls : Nat) : Option (Except ε Unit × σ) :=
  (loop.after m answers (.start data medium) calls).result

/-- A call that is an error whatever the writer does. -/
theorem complete_of_error {answers : Nat → Except ι Nat} {whole : σ → Prop} (e : ε) (medium : σ) :
    Complete answers whole fun _ => some (.error e, medium) where
  ends := ⟨0, by simp⟩
  delivers := by simp
  fails_of_zero := by simp

/-- A call that makes something of what another one returned, and no `Ok` of an error. -/
theorem Complete.map {τ : Type} {answers : Nat → Except ι Nat} {whole : σ → Prop}
    {call : Nat → Option (Except ε Unit × σ)} (complete : Complete answers whole call)
    {finish : Except ε Unit × σ → Except ε Unit × τ} {whole' : τ → Prop}
    (errors : ∀ e s t, finish (.error e, s) ≠ (.ok (), t))
    (oks : ∀ s t, whole s → finish (.ok (), s) = (.ok (), t) → whole' t) :
    Complete answers whole' fun calls => (call calls).map finish := by
  have from_ok : ∀ calls t, (call calls).map finish = some (.ok (), t) →
      ∃ s, call calls = some (.ok (), s) ∧ finish (.ok (), s) = (.ok (), t) := by
    intro calls t returned
    obtain ⟨⟨result, s⟩, called, eq⟩ := Option.map_eq_some_iff.mp returned
    cases result with
    | error e => exact absurd eq (errors e s t)
    | ok _ => exact ⟨s, called, eq⟩
  refine ⟨?_, fun calls t returned => ?_, fun k runs zero calls t returned => ?_⟩
  · obtain ⟨calls, ended⟩ := complete.ends
    exact ⟨calls, by simpa using ended⟩
  · obtain ⟨s, called, eq⟩ := from_ok calls t returned
    exact oks s t (complete.delivers calls s called) eq
  · obtain ⟨s, called, -⟩ := from_ok calls t returned
    exact complete.fails_of_zero k (Option.map_eq_none_iff.mp runs) zero calls s called

section

variable {loop : Loop α ι ε} {m : Medium α σ} {answers : Nat → Except ι Nat} {data : List α}
  {medium : σ}

theorem Loop.Lawful.call_delivers (lawful : loop.Lawful) {calls : Nat} {left : σ}
    (ok : loop.call m answers data medium calls = some (.ok (), left)) :
    left = m.put data medium := by
  obtain ⟨alive, done, rfl⟩ := result_eq_ok.mp ok
  obtain ⟨front, -, kept, whole⟩ := lawful.after_delivers m data medium answers calls
  rw [kept, ← whole alive, done, List.append_nil]

/-- After a call that made the loop fail it does not return `Ok`. -/
theorem call_ne_ok {k : Nat} (runs : loop.call m answers data medium k = none)
    (fails : (loop.after m answers (.start data medium) (k + 1)).failed ≠ none) (calls : Nat) (left : σ) :
    loop.call m answers data medium calls ≠ some (.ok (), left) := by
  intro ok
  rcases Nat.lt_or_ge k calls with later | sooner
  · have ended : (loop.after m answers (.start data medium) (k + 1)).result ≠ none := fun running =>
      fails (result_eq_none.mp running).1
    rw [Loop.call, after_stays later ended] at ok
    exact fails (result_eq_ok.mp ok).1
  · have running := running_before sooner runs
    rw [Loop.call, running] at ok
    nomatch ok

end

/-! ## Loops that notice a report of zero -/

/-- The loop takes a report of zero for an error, and tries again only when interrupted. -/
structure Loop.Careful (loop : Loop α ι ε) (interrupted : ι → Prop) : Prop extends loop.Lawful where
  notices : ∀ offered, ∃ e, loop.react offered (.ok 0) = .stop e
  retries : ∀ offered e, loop.react offered (.error e) = .again → interrupted e

section

variable {loop : Loop α ι ε} {interrupted : ι → Prop} {m : Medium α σ} {s : State α ε σ}
  {data : List α} {medium : σ}

/-- A loop that offers all that is left is careful if its reactions are. -/
theorem Loop.careful_of_reactions {react : List α → Except ι Nat → Reaction ε}
    (zero : ∀ offered, ∃ e, react offered (.ok 0) = .stop e)
    (some : ∀ offered n, react offered (.ok (n + 1)) = .advance (n + 1) ∨
      ∃ e, react offered (.ok (n + 1)) = .stop e)
    (errors : ∀ offered e, react offered (.error e) = .again ∧ interrupted e ∨
      ∃ e', react offered (.error e) = .stop e') :
    (⟨id, react⟩ : Loop α ι ε).Careful interrupted where
  offers := fun _ => List.prefix_rfl
  advances := by
    intro offered answer n (reacts : react offered answer = .advance n)
    match answer with
    | .ok 0 =>
        obtain ⟨e, stops⟩ := zero offered
        simp [stops] at reacts
    | .ok (k + 1) =>
        rcases some offered k with advances | ⟨e, stops⟩
        · rw [advances] at reacts
          rw [Reaction.advance.inj reacts]
        · simp [stops] at reacts
    | .error e => rcases errors offered e with ⟨waits, -⟩ | ⟨e', stops⟩ <;> simp_all
  waits := by
    intro offered answer (reacts : react offered answer = .again)
    match answer with
    | .ok 0 =>
        obtain ⟨e, stops⟩ := zero offered
        simp [stops] at reacts
    | .ok (k + 1) => rcases some offered k with advances | ⟨e, stops⟩ <;> simp_all
    | .error e => exact ⟨e, rfl⟩
  notices := zero
  retries := by
    intro offered e (reacts : react offered (.error e) = .again)
    rcases errors offered e with ⟨-, yes⟩ | ⟨e', stops⟩
    · exact yes
    · simp [stops] at reacts

/-- A turn that was not interrupted leaves less to write, or it is the last one. -/
theorem Loop.Careful.turn_shrinks (careful : loop.Careful interrupted) {answer : Except ι Nat}
    (calm : ∀ e, answer = .error e → ¬interrupted e) (before : s.result = none)
    (runs : (loop.turn m answer s).result = none) :
    (loop.turn m answer s).rest.length < s.rest.length := by
  cases reacts : loop.react (loop.offer s.rest) (report (loop.offer s.rest) answer) with
  | advance n =>
      have moved : n ≠ 0 := by
        rintro rfl
        have reported := careful.advances _ _ 0 reacts
        obtain ⟨e, stops⟩ := careful.notices (loop.offer s.rest)
        rw [reported, stops] at reacts
        nomatch reacts
      have left := List.length_pos_iff.mpr (result_eq_none.mp before).2
      rw [turn_advance before reacts]
      simp only [List.length_drop]
      omega
  | again =>
      obtain ⟨e, failed⟩ := careful.waits _ _ reacts
      rw [failed] at reacts
      have same : answer = .error e := by
        cases answer with
        | error e' => exact failed
        | ok n => nomatch failed
      exact absurd (careful.retries _ e reacts) (calm e same)
  | stop e =>
      rw [turn_stop before reacts] at runs
      nomatch (result_eq_none.mp runs).1

theorem Loop.Careful.ends (careful : loop.Careful interrupted) (schedule : Schedule ι interrupted) :
    ∃ calls, loop.call m schedule.answers data medium calls ≠ none := by
  obtain ⟨last, calm⟩ := schedule.settles
  -- from call `last` on, every turn takes from what is left
  have shrinks : ∀ k, loop.call m schedule.answers data medium (last + k) = none →
      (loop.after m schedule.answers (.start data medium) (last + k)).rest.length + k ≤
        (loop.after m schedule.answers (.start data medium) last).rest.length := by
    intro k
    induction k with
    | zero => simp
    | succ k ih =>
        intro runs
        have before := running_before (Nat.le_succ (last + k)) runs
        have less := careful.turn_shrinks (calm (last + k) (Nat.le_add_right last k)) before runs
        exact (Nat.add_lt_add_right less k).trans_le (ih before)
  let left := (loop.after m schedule.answers (.start data medium) last).rest.length
  refine ⟨last + left, fun runs => ?_⟩
  have none_left := shrinks left runs
  have some_left := List.length_pos_iff.mpr (result_eq_none.mp runs).2
  omega

theorem Loop.Careful.stops_of_zero (careful : loop.Careful interrupted) (runs : s.result = none) :
    (loop.turn m (.ok 0) s).failed ≠ none := by
  obtain ⟨e, stops⟩ := careful.notices (loop.offer s.rest)
  have reacts : loop.react (loop.offer s.rest) (report (loop.offer s.rest) (.ok 0)) = .stop e := by
    simpa using stops
  simp [turn_stop runs reacts]

theorem careful_complete (careful : loop.Careful interrupted) (schedule : Schedule ι interrupted)
    (m : Medium α σ) (data : List α) (medium : σ) :
    Complete schedule.answers (· = m.put data medium) (loop.call m schedule.answers data medium) where
  ends := careful.ends schedule
  delivers := fun _ _ ok => careful.call_delivers ok
  fails_of_zero := by
    intro k runs zero
    refine call_ne_ok runs ?_
    rw [Loop.after, zero]
    exact careful.stops_of_zero runs

end

/-! ## Loops that trust the writer -/

/-- The loop goes on by whatever is reported, zero as well, and gives up at any error. -/
structure Loop.Trusting (loop : Loop α ι ε) (chunk : Nat) : Prop where
  positive : 0 < chunk
  chunks : ∀ rest, loop.offer rest = rest.take chunk
  believes : ∀ offered n, loop.react offered (.ok n) = .advance n
  gives_up : ∀ offered e, ∃ e', loop.react offered (.error e) = .stop e'

/-- How far an answer brings the loop. -/
def amount (chunk : Nat) : Except ι Nat → Nat
  | .ok n => min n chunk
  | .error _ => 0

/-- How far the first answers bring a loop that has so much to write. -/
def covered (chunk : Nat) (answers : Nat → Except ι Nat) : Nat → Nat
  | 0 => 0
  | k + 1 => covered chunk answers k + amount chunk (answers k)

theorem covered_mono (chunk : Nat) (answers : Nat → Except ι Nat) : Monotone (covered chunk answers) :=
  monotone_nat_of_le_succ fun k => Nat.le_add_right (covered chunk answers k) _

theorem le_covered {chunk : Nat} (positive : 0 < chunk) {answers : Nat → Except ι Nat} {k : Nat}
    (moves : ∀ i < k, ∃ n, answers i = .ok (n + 1)) : k ≤ covered chunk answers k := by
  induction k with
  | zero => exact Nat.le_refl 0
  | succ k ih =>
      obtain ⟨n, eq⟩ := moves k (Nat.lt_succ_self k)
      have before := ih fun i lt => moves i (Nat.lt_succ_of_lt lt)
      simp only [covered, eq, amount]
      omega

section

variable {loop : Loop α ι ε} {chunk : Nat} {m : Medium α σ} {answers : Nat → Except ι Nat}
  {data : List α} {medium : σ}

theorem Loop.Trusting.lawful (trusting : loop.Trusting chunk) : loop.Lawful where
  offers := by
    intro rest
    rw [trusting.chunks]
    exact List.take_prefix chunk rest
  advances := by
    intro offered answer n reacts
    cases answer with
    | ok k =>
        rw [trusting.believes] at reacts
        rw [Reaction.advance.inj reacts]
    | error e =>
        obtain ⟨e', stops⟩ := trusting.gives_up offered e
        rw [stops] at reacts
        nomatch reacts
  waits := by
    intro offered answer reacts
    cases answer with
    | ok k =>
        rw [trusting.believes] at reacts
        nomatch reacts
    | error e => exact ⟨e, rfl⟩

theorem Loop.Trusting.turn_ok (trusting : loop.Trusting chunk) (n : Nat) {s : State α ε σ}
    (alive : s.failed = none) : (loop.turn m (.ok n) s).failed = none ∧
      (loop.turn m (.ok n) s).rest = s.rest.drop (min n chunk) := by
  cases result : s.result with
  | some r =>
      have done : s.rest = [] := by
        by_contra left
        rw [result_eq_none.mpr ⟨alive, left⟩] at result
        nomatch result
      rw [turn_of_some (by simp [result])]
      simp [alive, done]
  | none =>
      have reacts : loop.react (loop.offer s.rest) (report (loop.offer s.rest) (.ok n)) =
          .advance (min n (loop.offer s.rest).length) := trusting.believes _ _
      rw [turn_advance result reacts]
      refine ⟨alive, ?_⟩
      simp only [trusting.chunks, List.length_take]
      rcases Nat.le_total (min n chunk) s.rest.length with within | beyond
      · congr 1
        omega
      · rw [List.drop_eq_nil_of_le beyond, List.drop_eq_nil_of_le (by omega)]

/-- While the writer reports no error, what is left is what its reports do not cover. -/
theorem Loop.Trusting.after_ok (trusting : loop.Trusting chunk) (data : List α) (medium : σ) {k : Nat}
    (oks : ∀ i < k, ∃ n, answers i = .ok n) :
    (loop.after m answers (.start data medium) k).failed = none ∧
      (loop.after m answers (.start data medium) k).rest = data.drop (covered chunk answers k) := by
  induction k with
  | zero => exact ⟨rfl, rfl⟩
  | succ k ih =>
      obtain ⟨n, eq⟩ := oks k (Nat.lt_succ_self k)
      obtain ⟨alive, rest⟩ := ih fun i lt => oks i (Nat.lt_succ_of_lt lt)
      obtain ⟨alive', rest'⟩ := trusting.turn_ok (m := m) n alive
      rw [Loop.after, eq]
      refine ⟨alive', rest'.trans ?_⟩
      rw [rest, List.drop_drop, covered, eq, amount]

theorem Loop.Trusting.turn_error (trusting : loop.Trusting chunk) (e : ι) {s : State α ε σ}
    (runs : s.result = none) : (loop.turn m (.error e) s).failed ≠ none := by
  obtain ⟨e', stops⟩ := trusting.gives_up (loop.offer s.rest) e
  have reacts : loop.react (loop.offer s.rest) (report (loop.offer s.rest) (.error e)) = .stop e' := stops
  simp [turn_stop runs reacts]

/-- The loop makes another call exactly when nothing failed so far and something is left. -/
theorem Loop.Trusting.running_iff (trusting : loop.Trusting chunk) {k : Nat} :
    loop.call m answers data medium k = none ↔
      (∀ i < k, ∃ n, answers i = .ok n) ∧ covered chunk answers k < data.length := by
  constructor
  · intro runs
    have oks : ∀ i < k, ∃ n, answers i = .ok n := by
      intro i lt
      refine ok_of_ne_error fun e answer => ?_
      have still := (result_eq_none.mp (running_before lt runs)).1
      rw [Loop.after, answer] at still
      exact trusting.turn_error e (running_before (Nat.le_of_lt lt) runs) still
    refine ⟨oks, ?_⟩
    have left := (result_eq_none.mp runs).2
    rw [(trusting.after_ok data medium oks).2] at left
    exact List.drop_eq_nil_iff.not.mp left |> Nat.lt_of_not_le
  · rintro ⟨oks, less⟩
    obtain ⟨alive, rest⟩ := trusting.after_ok (m := m) data medium oks
    refine result_eq_none.mpr ⟨alive, ?_⟩
    rw [rest]
    exact List.drop_eq_nil_iff.not.mpr (Nat.not_le_of_lt less)

theorem Loop.Trusting.fails_at (trusting : loop.Trusting chunk) {k : Nat} {e : ι}
    (runs : loop.call m answers data medium k = none) (fails : answers k = .error e) :
    (loop.after m answers (.start data medium) (k + 1)).failed ≠ none := by
  rw [Loop.after, fails]
  exact trusting.turn_error e runs

/-- An error before the last element is taken, or no report of zero before it. -/
def Spared (chunk : Nat) (answers : Nat → Except ι Nat) (len : Nat) : Prop :=
  (∃ k e, answers k = .error e ∧ covered chunk answers k < len) ∨
    ∀ k, covered chunk answers k < len → answers k ≠ .ok 0

theorem Loop.Trusting.complete_of_error (trusting : loop.Trusting chunk) {k : Nat} {e : ι}
    (runs : loop.call m answers data medium k = none) (fails : answers k = .error e) :
    Complete answers (· = m.put data medium) (loop.call m answers data medium) where
  ends := ⟨k + 1, fun running => trusting.fails_at runs fails (result_eq_none.mp running).1⟩
  delivers := fun _ _ ok => trusting.lawful.call_delivers ok
  fails_of_zero := fun _ _ _ => call_ne_ok runs (trusting.fails_at runs fails)

/-- If no call it makes fails, it runs until everything is covered. -/
theorem Loop.Trusting.runs_of_covered (trusting : loop.Trusting chunk)
    (oks : ∀ k, loop.call m answers data medium k = none → ∃ n, answers k = .ok n) {k : Nat}
    (less : covered chunk answers k < data.length) : loop.call m answers data medium k = none := by
  refine trusting.running_iff.mpr ⟨?_, less⟩
  induction k with
  | zero => exact fun i lt => absurd lt (Nat.not_lt_zero i)
  | succ k ih =>
      intro i lt
      have sooner := Nat.lt_of_le_of_lt (covered_mono chunk answers (Nat.le_succ k)) less
      rcases Nat.lt_succ_iff_lt_or_eq.mp lt with earlier | rfl
      · exact ih sooner i earlier
      · exact oks i (trusting.running_iff.mpr ⟨ih sooner, sooner⟩)

theorem Loop.Trusting.complete_of_spared (trusting : loop.Trusting chunk)
    (spared : Spared chunk answers data.length) :
    Complete answers (· = m.put data medium) (loop.call m answers data medium) := by
  by_cases error : ∃ k e, loop.call m answers data medium k = none ∧ answers k = .error e
  · obtain ⟨k, e, runs, fails⟩ := error
    exact trusting.complete_of_error runs fails
  · have oks : ∀ k, loop.call m answers data medium k = none → ∃ n, answers k = .ok n := by
      intro k runs
      exact ok_of_ne_error fun e answer => error ⟨k, e, runs, answer⟩
    rcases spared with ⟨k, e, fails, less⟩ | moves
    · exact absurd ⟨k, e, trusting.runs_of_covered oks less, fails⟩ error
    · refine ⟨?_, fun _ _ ok => trusting.lawful.call_delivers ok, fun k runs zero => ?_⟩
      · by_contra forever
        have runs : ∀ k, loop.call m answers data medium k = none := fun k =>
          Classical.not_not.mp fun ended => forever ⟨k, ended⟩
        have less := fun k => (trusting.running_iff.mp (runs k)).2
        have far : data.length ≤ covered chunk answers data.length := by
          refine le_covered trusting.positive fun i _ => ?_
          obtain ⟨n, eq⟩ := oks i (runs i)
          cases n with
          | zero => exact absurd eq (moves i (less i))
          | succ n => exact ⟨n, eq⟩
        exact absurd (less data.length) (Nat.not_lt_of_le far)
      · exact absurd zero (moves k (trusting.running_iff.mp runs).2)

theorem trusting_complete_iff (trusting : loop.Trusting chunk) (answers : Nat → Except ι Nat)
    (m : Medium α σ) (data : List α) (medium : σ) :
    Complete answers (· = m.put data medium) (loop.call m answers data medium) ↔
      Spared chunk answers data.length := by
  refine ⟨fun complete => ?_, trusting.complete_of_spared⟩
  by_contra lost
  simp only [Spared, not_or, not_exists, not_and, Classical.not_forall, Classical.not_not] at lost
  obtain ⟨errors, k, less, zero⟩ := lost
  -- no call it makes fails, so what the loop returns can only be `Ok`
  have oks : ∀ j, loop.call m answers data medium j = none → ∃ n, answers j = .ok n := by
    intro j runs
    exact ok_of_ne_error fun e answer => errors j e answer (trusting.running_iff.mp runs).2
  have alive : ∀ j, (loop.after m answers (.start data medium) j).failed = none := by
    intro j
    induction j with
    | zero => rfl
    | succ j ih =>
        cases result : (loop.after m answers (.start data medium) j).result with
        | some r =>
            rw [after_stays (Nat.le_succ j) (by simp [result])]
            exact ih
        | none =>
            obtain ⟨n, answer⟩ := oks j result
            rw [Loop.after, answer]
            exact (trusting.turn_ok n ih).1
  obtain ⟨calls, ended⟩ := complete.ends
  have done : (loop.after m answers (.start data medium) calls).rest = [] := by
    by_contra left
    exact ended (result_eq_none.mpr ⟨alive calls, left⟩)
  exact complete.fails_of_zero k (trusting.runs_of_covered oks less) zero calls _
    (result_eq_ok.mpr ⟨alive calls, done, rfl⟩)

end

end Jbuu.Library.WriteLoop
