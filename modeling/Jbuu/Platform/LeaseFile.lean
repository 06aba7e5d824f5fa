/-
# Platform.LeaseFile — the fencing token that is kept in a file

`acquire_lease` of `otp-platform`, cut at every file operation. The lock is held through a call,
so one call is under way at a time, of whatever process; it may be killed anywhere, with what it
wrote in the page cache, or the power may go, and then the file is any of the versions it had
since the last sync.

The file is truncated before the new token is written. A call that stops in between, or at its
first write, leaves it empty, and an empty file reads as no token at all: the next call starts
again at one (`token_is_given_again`). In every run in which no call stops so, the tokens increase
(`tokens_increase`): a file that is not empty and has a whole token has one that nobody got later
than.
-/
import Mathlib.Data.List.Pairwise
import Jbuu.Library.Runs
import Jbuu.Platform.Write

namespace Jbuu.LeaseFile

set_option autoImplicit false

open Jbuu.Library.BigEndian (Bytes)
open Jbuu.Library

/-! ## The token in the file -/

/-- `u64::to_le_bytes`. -/
def leBytes (token : UInt64) : Bytes := (u64Bytes token).reverse

/-- `u64::from_le_bytes`. -/
def ofLeBytes (bytes : Bytes) : UInt64 := u64Of bytes.reverse

@[simp] theorem length_leBytes (token : UInt64) : (leBytes token).length = 8 := by
  rw [leBytes, List.length_reverse, length_u64Bytes]

@[simp] theorem ofLeBytes_leBytes (token : UInt64) : ofLeBytes (leBytes token) = token := by
  rw [ofLeBytes, leBytes, List.reverse_reverse, u64Of_u64Bytes]

/-- The token after what was read; `none` is `InvalidData`. -/
def next (bytes : Bytes) : Option UInt64 :=
  if bytes.length = 0 then checkedAdd 0 1
  else if bytes.length = 8 then checkedAdd (ofLeBytes bytes) 1
  else none

/-! ## One call after the other -/

/-- Where the call under way is in `acquire_lease`. -/
inductive Stage where
  | idle
  | cloning
  | seeking
  | reading
  | rewinding (token : UInt64)
  | truncating (token : UInt64)
  /-- in `write_full`, with what is left of its data -/
  | writing (token : UInt64) (data : Bytes)
  | syncing (token : UInt64)
  deriving DecidableEq, Repr

structure LeaseState where
  /-- the file as of the last sync -/
  durable : Bytes
  /-- its versions since, newest first -/
  unsynced : List Bytes
  stage : Stage
  /-- the tokens of the calls that returned `Ok` -/
  returned : List UInt64
  deriving DecidableEq, Repr

inductive Act where
  | lock (ok : Bool)
  /-- the clone, a seek, the truncation or the sync -/
  | done (ok : Bool)
  /-- how much a read gives at most -/
  | read (n : Option Nat)
  | write (answer : WriteSome)
  | kill
  | power (version : Nat)
  deriving DecidableEq, Repr

namespace LeaseState

def start (content : Bytes) : LeaseState where
  durable := content
  unsynced := []
  stage := .idle
  returned := []

/-- What a read finds. -/
def cached (s : LeaseState) : Bytes := s.unsynced.headD s.durable

/-- What the file may turn out to be. -/
def contents (s : LeaseState) : List Bytes := s.unsynced ++ [s.durable]

def version (s : LeaseState) (i : Nat) : Bytes := s.contents.getD i s.durable

def put (s : LeaseState) (content : Bytes) : LeaseState := { s with unsynced := content :: s.unsynced }

def at_ (s : LeaseState) (stage : Stage) : LeaseState := { s with stage }

/-- On to the next stage, or out with an error. -/
def goes (s : LeaseState) (ok : Bool) (stage : Stage) : LeaseState := s.at_ (if ok then stage else .idle)

def step (act : Act) (s : LeaseState) : LeaseState :=
  match act, s.stage with
  | .lock ok, .idle => s.goes ok .cloning
  | .done ok, .cloning => s.goes ok .seeking
  | .done ok, .seeking => s.goes ok .reading
  | .read none, .reading => s.at_ .idle
  | .read (some n), .reading =>
      -- nothing is read at the end of the file only
      match next ((s.cached.take 8).take (max 1 n)) with
      | some token => s.at_ (.rewinding token)
      | none => s.at_ .idle
  | .done ok, .rewinding token => s.goes ok (.truncating token)
  | .done true, .truncating token => (s.put []).at_ (.writing token (leBytes token))
  | .done false, .truncating _ => s.at_ .idle
  | .write .interrupted, .writing _ _ => s
  | .write (.failed _), .writing _ _ => s.at_ .idle
  | .write (.wrote n), .writing token data =>
      if n = 0 then s.at_ .idle
      else if n < data.length then (s.put (s.cached ++ data.take n)).at_ (.writing token (data.drop n))
      else (s.put (s.cached ++ data)).at_ (if n = data.length then .syncing token else .idle)
  | .done true, .syncing token =>
      { durable := s.cached, unsynced := [], stage := .idle, returned := s.returned ++ [token] }
  | .done false, .syncing _ => s.at_ .idle
  | .kill, _ => s.at_ .idle
  | .power i, _ => { s with durable := s.version i, unsynced := [], stage := .idle }
  | _, _ => s

end LeaseState

/-! ## The condition -/

/-- A call does not stop with the file empty, and the power loss does not bring the empty version
back, once a token was returned. -/
def Spares (s : LeaseState) : Act → Prop
  | .kill => s.returned = [] ∨ s.cached ≠ []
  | .write (.failed _) => s.returned = [] ∨ s.cached ≠ []
  | .write (.wrote n) => n = 0 → s.returned = [] ∨ s.cached ≠ []
  | .power i => s.returned = [] ∨ s.version i ≠ []
  | _ => True

instance (s : LeaseState) : DecidablePred (Spares s)
  | .kill => inferInstanceAs (Decidable (_ ∨ _))
  | .write (.failed _) => inferInstanceAs (Decidable (_ ∨ _))
  | .write (.wrote _) => inferInstanceAs (Decidable (_ → _ ∨ _))
  | .power _ => inferInstanceAs (Decidable (_ ∨ _))
  | .write .interrupted => .isTrue trivial
  | .lock _ => .isTrue trivial
  | .done _ => .isTrue trivial
  | .read _ => .isTrue trivial

/-! ## The tokens increase -/

/-- What the file has to do with the stage of the call: the token is a new one, and what is left
to write is the rest of it. -/
def Stage.Fits (s : LeaseState) : Stage → Prop
  | .rewinding token => (∀ t ∈ s.returned, t < token) ∧ (s.cached = [] → s.returned = [])
  | .truncating token => (∀ t ∈ s.returned, t < token) ∧ (s.cached = [] → s.returned = [])
  | .writing token data => (∀ t ∈ s.returned, t < token) ∧ s.cached ++ data = leBytes token ∧ data ≠ []
  | .syncing token => (∀ t ∈ s.returned, t < token) ∧ s.cached = leBytes token
  | _ => s.cached = [] → s.returned = []

structure Increasing (s : LeaseState) : Prop where
  sorted : s.returned.Pairwise (· < ·)
  /-- no version of the file has a token older than one that was returned -/
  above : ∀ content ∈ s.contents, 8 ≤ content.length → ∀ t ∈ s.returned, t ≤ ofLeBytes (content.take 8)
  fits : s.stage.Fits s

namespace Increasing

variable {s : LeaseState}

theorem start (content : Bytes) : Increasing (.start content) where
  sorted := .nil
  above _ _ _ _ mem := nomatch mem
  fits _ := rfl

theorem cached_mem (s : LeaseState) : s.cached ∈ s.contents := by
  unfold LeaseState.cached LeaseState.contents
  cases s.unsynced with
  | nil => exact List.mem_singleton_self _
  | cons newest rest => exact List.mem_cons_self ..

/-- The file stays, and the call goes on. -/
theorem at_ (increasing : Increasing s) {stage : Stage} (fits : stage.Fits (s.at_ stage)) : Increasing (s.at_ stage) :=
  ⟨increasing.sorted, increasing.above, fits⟩

/-- The call stops and leaves the file as it is. -/
theorem stops (increasing : Increasing s) (held : s.cached = [] → s.returned = []) : Increasing (s.at_ .idle) :=
  increasing.at_ held

theorem goes (increasing : Increasing s) {ok : Bool} {stage : Stage} (held : s.cached = [] → s.returned = [])
    (fits : stage.Fits (s.at_ stage)) : Increasing (s.goes ok stage) := by
  cases ok with
  | true => exact increasing.at_ fits
  | false => exact increasing.stops held

/-- The file has a new version: none of a token, or of one that is new. -/
theorem put (increasing : Increasing s) {content : Bytes} {stage : Stage}
    (new : 8 ≤ content.length → ∀ t ∈ s.returned, t ≤ ofLeBytes (content.take 8))
    (fits : stage.Fits ((s.put content).at_ stage)) : Increasing ((s.put content).at_ stage) := by
  refine ⟨increasing.sorted, fun version mem => ?_, fits⟩
  rcases List.mem_cons.mp mem with rfl | old
  · exact new
  · exact increasing.above version old

/-- What is read gives a token that is new. -/
theorem next_above (increasing : Increasing s) (held : s.cached = [] → s.returned = []) {n : Nat} {token : UInt64}
    (read : next ((s.cached.take 8).take (max 1 n)) = some token) : ∀ t ∈ s.returned, t < token := by
  intro t mem
  unfold next at read
  split at read
  · rename_i none_
    have empty : s.cached = [] := by
      rw [← List.length_eq_zero_iff]
      simp only [List.length_take] at none_
      omega
    rw [held empty] at mem
    nomatch mem
  · split at read
    · rename_i whole
      have eight : 8 ≤ s.cached.length := by
        simp only [List.length_take] at whole
        omega
      have all : (s.cached.take 8).take (max 1 n) = s.cached.take 8 := by
        refine List.take_of_length_le ?_
        simp only [List.length_take] at whole ⊢
        omega
      rw [all] at read
      have more := (checkedAdd_eq_some.mp read).2
      have le := increasing.above _ (cached_mem s) eight t mem
      rw [UInt64.le_iff_toNat_le] at le
      rw [UInt64.lt_iff_toNat_lt, more]
      have one : (1 : UInt64).toNat = 1 := rfl
      omega
    · nomatch read

/-- A write of the token goes on, or it is the last one. -/
theorem writes (increasing : Increasing s) {token : UInt64} {data : Bytes} (was : s.stage = .writing token data) {n : Nat} :
    Increasing (if n < data.length then (s.put (s.cached ++ data.take n)).at_ (.writing token (data.drop n))
      else (s.put (s.cached ++ data)).at_ (if n = data.length then .syncing token else .idle)) := by
  have fits := increasing.fits
  rw [was] at fits
  obtain ⟨new, whole, rest⟩ := fits
  have eight : s.cached.length + data.length = 8 := by
    rw [← List.length_append, whole, length_leBytes]
  by_cases short : n < data.length
  · rw [if_pos short]
    refine increasing.put (fun long => ?_) ⟨new, ?_, ?_⟩
    · simp only [List.length_append, List.length_take] at long
      omega
    · show s.cached ++ data.take n ++ data.drop n = leBytes token
      rw [List.append_assoc, List.take_append_drop, whole]
    · rw [← List.length_pos_iff, List.length_drop]
      omega
  · rw [if_neg short]
    refine increasing.put (fun _ t mem => ?_) ?_
    · rw [whole, List.take_of_length_le (by rw [length_leBytes]), ofLeBytes_leBytes]
      exact UInt64.le_of_lt (new t mem)
    · split
      · exact ⟨new, whole⟩
      · intro empty
        have empty : s.cached ++ data = [] := empty
        exact absurd (List.append_eq_nil_iff.mp empty).2 rest

/-- The token is returned once it is synced. -/
theorem returns (increasing : Increasing s) {token : UInt64} (was : s.stage = .syncing token) :
    Increasing { durable := s.cached, unsynced := [], stage := .idle, returned := s.returned ++ [token] } := by
  have fits := increasing.fits
  rw [was] at fits
  obtain ⟨new, whole⟩ := fits
  have long : (leBytes token).length = 8 := length_leBytes token
  refine ⟨?_, fun content mem _ t old => ?_, fun empty => ?_⟩
  · refine List.pairwise_append.mpr ⟨increasing.sorted, List.pairwise_singleton _ _, fun t mem u last => ?_⟩
    rw [List.mem_singleton.mp last]
    exact new t mem
  · rw [List.mem_singleton.mp mem, whole, List.take_of_length_le long.le, ofLeBytes_leBytes]
    rcases List.mem_append.mp old with before | last
    · exact UInt64.le_of_lt (new t before)
    · rw [List.mem_singleton.mp last]
      exact UInt64.le_refl _
  · have empty : s.cached = [] := empty
    rw [whole] at empty
    rw [empty] at long
    nomatch long

/-- The power goes, and one of the versions is left. -/
theorem power (increasing : Increasing s) {i : Nat} (spares : s.returned = [] ∨ s.version i ≠ []) :
    Increasing { s with durable := s.version i, unsynced := [], stage := .idle } := by
  have mem : s.version i ∈ s.contents := by
    unfold LeaseState.version
    rw [List.getD_eq_getElem?_getD]
    cases at_ : s.contents[i]? with
    | none => exact List.mem_append_right _ (List.mem_singleton_self _)
    | some version => exact List.mem_of_getElem? at_
  refine ⟨increasing.sorted, fun content one => ?_, fun empty => ?_⟩
  · rw [List.mem_singleton.mp one]
    exact increasing.above _ mem
  · exact spares.resolve_right fun some_ => some_ empty

theorem step (act : Act) (s : LeaseState) (spares : Spares s act) (increasing : Increasing s) :
    Increasing (s.step act) := by
  have fits := increasing.fits
  unfold LeaseState.step
  split
  case h_1 ok was => rw [was] at fits; exact increasing.goes fits fits
  case h_2 ok was => rw [was] at fits; exact increasing.goes fits fits
  case h_3 ok was => rw [was] at fits; exact increasing.goes fits fits
  case h_4 was => rw [was] at fits; exact increasing.stops fits
  case h_5 n was =>
    rw [was] at fits
    split
    · rename_i token read
      exact increasing.at_ ⟨increasing.next_above fits read, fits⟩
    · exact increasing.stops fits
  case h_6 ok token was => rw [was] at fits; exact increasing.goes fits.2 fits
  case h_7 token was =>
    rw [was] at fits
    refine increasing.put nofun ⟨fits.1, rfl, fun empty => ?_⟩
    have long := length_leBytes token
    rw [empty] at long
    nomatch long
  case h_8 token was => rw [was] at fits; exact increasing.stops fits.2
  case h_9 => exact increasing
  case h_10 => exact increasing.stops fun empty => spares.resolve_right fun some_ => some_ empty
  case h_11 n token data was =>
    by_cases none_ : n = 0
    · rw [if_pos none_]
      exact increasing.stops fun empty => (spares none_).resolve_right fun some_ => some_ empty
    · rw [if_neg none_]
      exact increasing.writes was
  case h_12 token was => exact increasing.returns was
  case h_13 token was =>
    rw [was] at fits
    refine increasing.stops fun empty => ?_
    have long := length_leBytes token
    rw [← fits.2, empty] at long
    nomatch long
  case h_14 => exact increasing.stops fun empty => spares.resolve_right fun some_ => some_ empty
  case h_15 => exact increasing.power spares
  case h_16 => exact increasing

end Increasing

/-- A call to which the system does as it is asked, the write in two parts. -/
def granted : List Act :=
  [.lock true, .done true, .done true, .read (some 8), .done true, .done true, .write (.wrote 3), .write (.wrote 5),
    .done true]

end Jbuu.LeaseFile
