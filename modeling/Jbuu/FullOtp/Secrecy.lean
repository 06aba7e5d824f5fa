/-
# FullOtp.Secrecy — who watches the line learns nothing of the plaintexts

Perfect secrecy of a full-OTP session. The book is a uniform string; the observer of the
line sees every call and every reply at both ends but for the plaintexts, and may make the
ends receive whatever it likes. Two users that differ only in what their plaintexts say show
every view equally often (`perfect_secrecy`), as long as nothing forged is accepted in it.

What a view tells of the plaintexts is where they lie on the pads; the difference of the two
users' plaintexts there is the mask (`difference`). No key is taken from under it
(`key_apart`), so a run on masked pads with the other user's plaintexts is seen as the same
run (`coupled`).
-/
import Jbuu.FullOtp.Line

namespace Jbuu.FullOtp

set_option autoImplicit false

open Jbuu.Library.BigEndian (Bytes Exactly)
open Jbuu.Library

/-! ## Keys and pads lie apart -/

section Apart

variable {σ : Type} {setting : Setting σ} {w : Line σ}

/-- Two halves of bundles of one book are apart, unless they are the same half. -/
theorem halves_apart {segments : UInt64} {ranges : RangeSource segments σ} {a : Audit σ} (ranged : Ranged ranges a)
    {b b' : UInt64} (mem : b ∈ a.granted) (mem' : b' ∈ a.granted) {d d' : Direction} (other : b ≠ b' ∨ d ≠ d') :
    (halfSpan b d).Apart (halfSpan b' d') := by
  have inside : ∀ b d, (bundleSpan b).first ≤ (halfSpan b d).first ∧
      (halfSpan b d).first + (halfSpan b d).length ≤ (bundleSpan b).first + (bundleSpan b).length := by
    intro b d
    cases d <;> simp only [bundleSpan, halfSpan] <;> omega
  by_cases same : b = b'
  · subst same
    cases d <;> cases d' <;> simp [halfSpan, Span.Apart] at other ⊢
  · have apart := List.pairwise_map.mp ranged.apart
    have symmetric : Std.Symm fun b b' : UInt64 => (bundleSpan b).Apart (bundleSpan b') :=
      ⟨fun _ _ => Span.Apart.symm⟩
    have bundles := apart.forall mem mem' same
    have left := inside b d
    have right := inside b' d'
    unfold Span.Apart at *
    omega

theorem Kept.granted (kept : Kept setting w) (d : Direction) : ∀ b ∈ (w.ends.get d).granted, b ∈ w.ends.s2c.granted := by
  cases d with
  | clientToServer => exact kept.told
  | serverToClient => exact fun b mem => mem

theorem Kept.once (kept : Kept setting w) (d : Direction) : (spent (w.ends.get d).uses).Nodup :=
  (kept.sound d).conserved.once (Span.nodup_sum (kept.ranged d).apart)

/-- What two records of different directions took is apart, at whichever ends. -/
theorem Kept.directions_apart (kept : Kept setting w) {d d' : Direction} {u u' : Use}
    (mem : u ∈ (w.ends.get d).uses) (mem' : u' ∈ (w.ends.get d').uses) (other : u.direction ≠ u'.direction) :
    Disjoint u.spent u'.spent := by
  obtain ⟨b, granted, key, pad⟩ := (kept.sound d).inside u mem
  obtain ⟨b', granted', key', pad'⟩ := (kept.sound d').inside u' mem'
  have apart : (halfSpan b u.direction).Apart (halfSpan b' u'.direction) :=
    halves_apart (kept.ranged .serverToClient) (kept.granted d b granted) (kept.granted d' b' granted') (.inr other)
  rw [Multiset.disjoint_left]
  intro a inU inU'
  have left : a ∈ (halfSpan b u.direction).addresses :=
    (Multiset.mem_add.mp inU).elim (fun inside => key.mem inside) fun inside => pad.mem inside
  have right : a ∈ (halfSpan b' u'.direction).addresses :=
    (Multiset.mem_add.mp inU').elim (fun inside => key'.mem inside) fun inside => pad'.mem inside
  exact Multiset.disjoint_left.mp apart.disjoint left right

theorem key_spent {u : Use} {a : Nat} (inside : a ∈ u.key.addresses) : a ∈ u.spent :=
  Multiset.mem_add.mpr (.inl inside)

theorem pad_spent {u : Use} {a : Nat} (inside : a ∈ u.pad.addresses) : a ∈ u.spent :=
  Multiset.mem_add.mpr (.inr inside)

/-- A key that begins where a sealed record ends is apart from the pads of all others. -/
theorem apart_after {uses : List Use} (once : (spent uses).Nodup) {r r' : OtpDataRecord} (mem : r.use ∈ uses)
    (mem' : r'.use ∈ uses) {a : Nat} (low : r'.use.pad.first + r'.use.pad.length ≤ a)
    (high : a < r'.use.pad.first + r'.use.pad.length + macKeyLen) : a ∉ r.use.pad.addresses := by
  intro inside
  rw [Span.mem_addresses] at inside
  by_cases same : r.use = r'.use
  · rw [same] at inside
    omega
  · have apart := disjoint_parts once mem mem' same
    have key : ∀ {r r' : OtpDataRecord}, Disjoint r.use.spent r'.use.spent →
        ¬(r'.use.key.first ≤ r.use.key.first ∧ r.use.key.first < r'.use.pad.first + r'.use.pad.length) := by
      intro r r' apart inside
      have first : r.use.key.first ∈ r.use.key.addresses := by
        rw [Span.mem_addresses]
        simp only [OtpDataRecord.use, macKeyLen]
        omega
      refine Multiset.disjoint_left.mp apart (key_spent first) ?_
      rw [Use.spent, Multiset.mem_add, Span.mem_addresses, Span.mem_addresses]
      simp only [OtpDataRecord.use] at *
      omega
    have left := key apart
    have right := key apart.symm
    simp only [OtpDataRecord.use] at *
    omega

/-- **No key is taken from under a record's pad**, at either end. -/
theorem Kept.key_apart (kept : Kept setting w) {d : Direction} {u : Use} (mem : u ∈ (w.ends.get d).uses) {e : Seen}
    (there : e ∈ w.seen) {r : OtpDataRecord} (seals : e.Seals r) {a : Nat} (inside : a ∈ u.key.addresses) :
    a ∉ r.use.pad.addresses := by
  obtain ⟨used, direction, -⟩ := kept.sealed e there r seals
  have way : r.use.direction = e.side := direction
  intro under
  by_cases same : u.direction = e.side
  · rcases Direction.eq_or_opposite e.side d with rfl | rfl
    · -- the end that sealed it
      have once := kept.once e.side
      by_cases this : u = r.use
      · subst this
        have apart := (Multiset.nodup_add.mp (nodup_part once mem)).2.2
        exact Multiset.disjoint_left.mp apart inside under
      · exact Multiset.disjoint_left.mp (disjoint_parts once mem used this) (key_spent inside) (pad_spent under)
    · -- the end that reads it
      obtain ⟨long_, anchor⟩ := kept.keys e.side u mem same
      have bounds := Span.mem_addresses.mp inside
      rw [long_] at bounds
      rcases anchor with ⟨b, granted, head⟩ | ⟨e', there', side, r', seals', end_⟩
      · obtain ⟨b', granted', key, pad⟩ := (kept.sound e.side).inside r.use used
        rw [way] at key pad
        by_cases one : b = b'
        · -- the head of the half the record lies in
          subst one
          have front := key
          rw [Span.mem_addresses] at under
          simp only [Span.Within, OtpDataRecord.use, macKeyLen] at front under bounds
          omega
        · have half : u.key.Within (halfSpan b e.side) := by
            right
            rw [long_, head]
            cases e.side <;> simp only [halfSpan, macKeyLen] <;> omega
          have apart : (halfSpan b e.side).Apart (halfSpan b' e.side) :=
            halves_apart (kept.ranged .serverToClient) (kept.granted _ b granted) (kept.granted _ b' granted') (.inl one)
          exact Multiset.disjoint_left.mp apart.disjoint (half.mem inside) (pad.mem under)
      · obtain ⟨used', -⟩ := kept.sealed e' there' r' seals'
        rw [side] at used'
        rw [end_] at bounds
        exact apart_after (kept.once e.side) used used' bounds.1 bounds.2 under
  · have apart := kept.directions_apart mem used (way ▸ same)
    exact Multiset.disjoint_left.mp apart (key_spent inside) (pad_spent under)

end Apart

/-! ## Plaintexts laid over the pads -/

/-- The record a call returned. -/
def Seen.sealed (e : Seen) : Option OtpDataRecord :=
  match e.reply with
  | .sent (.ok (.record r _ _)) => some r
  | _ => none

theorem Seen.sealed_eq {e : Seen} {r : OtpDataRecord} : e.sealed = some r ↔ e.Seals r := by
  obtain ⟨side, call, reply⟩ := e
  constructor
  · intro sealed
    cases reply with
    | sent result =>
        cases result with
        | error e => cases sealed
        | ok outcome =>
            cases outcome with
            | backpressure => cases sealed
            | record r' n need => exact ⟨n, need, by rw [Option.some.inj sealed]⟩
    | _ => cases sealed
  · rintro ⟨n, need, reply⟩
    have reply : _ = PumpReply.sent (.ok (.record r n need)) := reply
    subst reply
    rfl

/-- A plaintext where the record of a call has it on the pads. -/
def Seen.patch (plaintext : Bytes) (e : Seen) : List Patch :=
  (e.sealed.map fun r => ⟨r.use.pad.first, (List.range r.ciphertext.length).map (byteAt plaintext)⟩).toList

/-- The plaintexts of a user, as a view says where they lie. -/
def laid (user : User) : List Seen → List Seen → List Patch
  | _, [] => []
  | before, e :: rest => e.patch (user before).2.plaintext ++ laid user (before ++ [e]) rest

/-- The difference of two users' plaintexts, on the pads. -/
def difference (user user' : User) (view : List Seen) (a : Nat) : UInt8 :=
  mask (laid user [] view) a ^^^ mask (laid user' [] view) a

section Laid

variable {user user' : User}

theorem difference_comm (view : List Seen) : difference user user' view = difference user' user view := by
  funext a
  exact UInt8.xor_comm _ _

theorem laid_append (before seen more : List Seen) :
    laid user before (seen ++ more) = laid user before seen ++ laid user (before ++ seen) more := by
  induction seen generalizing before with
  | nil => simp [laid]
  | cons e rest ih => simp [laid, ih]

theorem mem_patch {plaintext : Bytes} {e : Seen} {p : Patch} (mem : p ∈ e.patch plaintext) :
    ∃ r, e.Seals r ∧ p.span = r.use.pad := by
  obtain ⟨r, sealed, rfl⟩ : ∃ r, e.sealed = some r ∧
      (⟨r.use.pad.first, (List.range r.ciphertext.length).map (byteAt plaintext)⟩ : Patch) = p := by
    simpa [Seen.patch] using mem
  refine ⟨r, Seen.sealed_eq.mp sealed, ?_⟩
  simp [Patch.span, OtpDataRecord.use]

theorem mem_laid {before seen : List Seen} {p : Patch} (mem : p ∈ laid user before seen) :
    ∃ e ∈ seen, ∃ r, e.Seals r ∧ p.span = r.use.pad := by
  induction seen generalizing before with
  | nil => exact absurd mem List.not_mem_nil
  | cons e rest ih =>
      rcases List.mem_append.mp mem with here | later
      · exact ⟨e, List.mem_cons_self, mem_patch here⟩
      · obtain ⟨e', there, shape⟩ := ih later
        exact ⟨e', List.mem_cons_of_mem _ there, shape⟩

variable (user user') in
/-- Which pads plaintexts lie on is the same for all users. -/
theorem spans_laid (before seen : List Seen) :
    (laid user before seen).map Patch.span = (laid user' before seen).map Patch.span := by
  induction seen generalizing before with
  | nil => rfl
  | cons e rest ih =>
      have here : ∀ plaintext plaintext' : Bytes,
          (e.patch plaintext).map Patch.span = (e.patch plaintext').map Patch.span := by
        intro plaintext plaintext'
        unfold Seen.patch
        cases e.sealed with
        | none => rfl
        | some r => simp [Patch.span]
      simp only [laid, List.map_append, ih, here _ (user' before).2.plaintext]

end Laid

section Run

variable {σ : Type} {setting : Setting σ} {body : Body setting.segments} {user : User}

theorem after_succ (n : Nat) : Line.after setting body user (n + 1) =
    (Line.after setting body user n).call setting body (user (Line.after setting body user n).seen).1
      (user (Line.after setting body user n).seen).2 := by
  rw [Line.after, Function.iterate_succ_apply']
  rfl

variable (setting body user) in
/-- A view goes on from an earlier one. -/
theorem seen_after (n m : Nat) : ∃ rest, (Line.after setting body user (n + m)).seen =
    (Line.after setting body user n).seen ++ rest := by
  induction m with
  | zero => exact ⟨[], (List.append_nil _).symm⟩
  | succ m ih =>
      obtain ⟨rest, grown⟩ := ih
      rw [← Nat.add_assoc, after_succ, seen_call, grown, List.append_assoc]
      exact ⟨_, rfl⟩

variable (setting body user) in
theorem uses_after (n m : Nat) (d : Direction) : ∀ u ∈ ((Line.after setting body user n).ends.get d).uses,
    u ∈ ((Line.after setting body user (n + m)).ends.get d).uses := by
  intro u mem
  induction m with
  | zero => exact mem
  | succ m ih =>
      rw [← Nat.add_assoc, after_succ]
      exact uses_kept d u ih

/-- **No two plaintexts lie on one pad**, at whichever ends they were sealed. -/
theorem laid_apart (n : Nat) (authentic : Authentic (Line.after setting body user n).seen) :
    (laid user [] (Line.after setting body user n).seen).Pairwise fun p q =>
      Disjoint p.span.addresses q.span.addresses := by
  induction n with
  | zero => exact .nil
  | succ n ih =>
      have then_ := kept_after setting body user (n + 1) authentic
      rw [after_succ] at authentic then_ ⊢
      obtain ⟨before, -⟩ := authentic.last
      have kept := kept_after setting body user n before
      generalize Line.after setting body user n = w at *
      rw [seen_call, laid_append, List.pairwise_append]
      have last : laid user ([] ++ w.seen) [w.sight setting body (user w.seen).1 (user w.seen).2] =
          (w.sight setting body (user w.seen).1 (user w.seen).2).patch (user w.seen).2.plaintext := List.append_nil _
      rw [last]
      refine ⟨ih before, ?_, ?_⟩
      · unfold Seen.patch
        cases (w.sight setting body (user w.seen).1 (user w.seen).2).sealed with
        | none => exact .nil
        | some r => exact List.pairwise_singleton _ _
      · intro p old q new
        obtain ⟨e, there, r, seals, span⟩ := mem_laid old
        obtain ⟨r', seals', span'⟩ := mem_patch new
        obtain ⟨used, way, -⟩ := kept.sealed e there r seals
        obtain ⟨took, way', -⟩ := sight_seals seals'
        rw [span, span']
        suffices apart : Disjoint r.use.spent r'.use.spent from
          Multiset.disjoint_left.mpr fun inside inside' =>
            Multiset.disjoint_left.mp apart (pad_spent inside) (pad_spent inside')
        by_cases same : e.side = (user w.seen).1
        · have once := then_.once (user w.seen).1
          rw [uses_call, took, spent_append, spent_single, Multiset.nodup_add] at once
          rw [same] at used
          rw [Multiset.disjoint_left]
          intro a inside
          exact Multiset.disjoint_left.mp once.2.2 (mem_sum_of_mem used inside)
        · apply then_.directions_apart (uses_kept e.side r.use used)
          · rw [uses_call, took]
            exact List.mem_append_right _ List.mem_cons_self
          · show r.direction ≠ r'.direction
            rw [way, way', kept.role]
            exact same

end Run

/-! ## The difference fits -/

section Fits

variable {σ : Type} {setting : Setting σ} {body : Body setting.segments} {user user' : User} {n : Nat}

theorem difference_zero {view : List Seen} {a : Nat}
    (outside : ∀ e ∈ view, ∀ r, e.Seals r → a ∉ r.use.pad.addresses) : difference user user' view a = 0 := by
  have none_ : ∀ user, mask (laid user [] view) a = 0 := by
    intro user
    apply mask_outside
    intro p mem
    obtain ⟨e, there, r, seals, span⟩ := mem_laid mem
    rw [span]
    exact outside e there r seals
  unfold difference
  rw [none_, none_]
  rfl

/-- What is laid reads, under a record, as the plaintext it was made of. -/
theorem mask_laid {view before rest : List Seen} {e : Seen} (split_ : view = before ++ e :: rest) {r : OtpDataRecord}
    (seals : e.Seals r)
    (apart : (laid user [] view).Pairwise fun p q => Disjoint p.span.addresses q.span.addresses) {i : Nat}
    (inside : i < r.ciphertext.length) :
    mask (laid user [] view) (r.use.pad.first + i) = byteAt (user before).2.plaintext i := by
  have patch : (⟨r.use.pad.first, (List.range r.ciphertext.length).map (byteAt (user before).2.plaintext)⟩ : Patch) ∈
      laid user [] view := by
    rw [split_, laid_append]
    apply List.mem_append_right
    apply List.mem_append_left
    have sealed := Seen.sealed_eq.mpr seals
    simp [Seen.patch, sealed]
  rw [mask_inside apart patch, Patch.byte_inside]
  · simp [inside]
  · rw [Span.mem_addresses]
    simp only [Patch.span, List.length_map, List.length_range]
    omega

theorem covers_difference (authentic : Authentic (Line.after setting body user n).seen) {before rest : List Seen}
    {e : Seen} (split_ : (Line.after setting body user n).seen = before ++ e :: rest) {r : OtpDataRecord}
    (seals : e.Seals r) :
    Covers (difference user user' (Line.after setting body user n).seen) r (user before).2.plaintext
      (user' before).2.plaintext := by
  have kept := kept_after setting body user n authentic
  have apart := laid_apart n authentic
  have there : e ∈ (Line.after setting body user n).seen := by
    rw [split_]
    exact List.mem_append_right _ List.mem_cons_self
  obtain ⟨used, -⟩ := kept.sealed e there r seals
  constructor
  · intro a inside
    apply difference_zero
    intro e' there' r' seals'
    exact kept.key_apart used there' seals' inside
  · intro i inside
    have apart' : (laid user' [] (Line.after setting body user n).seen).Pairwise fun p q =>
        Disjoint p.span.addresses q.span.addresses := by
      have spans : ((laid user [] (Line.after setting body user n).seen).map Patch.span).Pairwise fun s t =>
          Disjoint s.addresses t.addresses := List.pairwise_map.mpr apart
      rw [spans_laid user user'] at spans
      exact spans.of_map Patch.span fun _ _ disjoint => disjoint
    unfold difference
    rw [mask_laid split_ seals apart inside, mask_laid split_ seals apart' inside]

end Fits

/-! ## Two runs that are seen as one -/

def Audit.masked {σ : Type} (delta : Nat → UInt8) (a : Audit σ) : Audit σ :=
  { a with pump := a.pump.masked delta }

def Line.masked {σ : Type} (delta : Nat → UInt8) (w : Line σ) : Line σ :=
  { w with ends := ⟨w.ends.c2s.masked delta, w.ends.s2c.masked delta⟩ }

/-- Two users that make the same calls, but for what the plaintexts say. -/
def Indistinct (user user' : User) : Prop :=
  ∀ seen, (user seen).1 = (user' seen).1 ∧ (user seen).2.blind = (user' seen).2.blind

section Coupled

variable {σ : Type} {setting : Setting σ} {body : Body setting.segments} {user user' : User} {delta : Nat → UInt8}

theorem masked_get (w : Line σ) (d : Direction) : (w.masked delta).ends.get d = (w.ends.get d).masked delta := by
  cases d <;> rfl

theorem lengths_blind (role : Role) (reply : PumpReply) : reply.blind.lengths role = reply.lengths role := by
  cases reply with
  | received result =>
      cases result with
      | error e => rfl
      | ok r =>
          show PumpReply.lengths role (.received (.ok r.blind)) = _
          rw [lengths_received, lengths_received]
          simp [Received.blind]
  | _ => rfl

theorem audit_masked {mac : MacKey → Bytes → Tag} {segments : UInt64} {ranges : RangeSource segments σ}
    {body : Body segments} {a : Audit σ} {c c' : PumpCall} (alike : c'.blind = c.blind)
    (fitting : Fitting delta c c' (PumpCall.on mac (ranges.over body).logged a.pump (a.source, a.granted) c).1) :
    audit mac (ranges.over (masked delta body)) c' (a.masked delta) = (audit mac (ranges.over body) c a).masked delta := by
  obtain ⟨reply, pump, trail, rest⟩ := on_masked mac alike fitting
  have lengths : ∀ d, (PumpCall.on mac (ranges.over (masked delta body)).logged (a.pump.masked delta)
        (a.source, a.granted) c').1.result.lengths a.pump.role d =
      (PumpCall.on mac (ranges.over body).logged a.pump (a.source, a.granted) c).1.result.lengths a.pump.role d := by
    intro d
    rw [← lengths_blind, reply, lengths_blind]
  unfold audit Audit.masked
  dsimp only
  generalize PumpCall.on mac (ranges.over body).logged a.pump (a.source, a.granted) c = out at *
  generalize PumpCall.on mac (ranges.over (masked delta body)).logged (a.pump.masked delta) (a.source, a.granted) c' =
    out' at *
  obtain ⟨⟨result, pump_, trail_⟩, st⟩ := out
  obtain ⟨⟨result', pump_', trail_'⟩, st'⟩ := out'
  dsimp only at *
  subst pump trail rest
  congr 1
  funext d
  exact congrArg (a.returned d ++ ·) (lengths d)

/-- One call on masked pads, with the plaintext that differs by the mask. -/
theorem call_masked {w : Line σ} {side : Direction} {c c' : PumpCall} (alike : c'.blind = c.blind)
    (fitting : Fitting delta c c' (w.outcome setting body side c).1) :
    (w.masked delta).call setting (masked delta body) side c' = (w.call setting body side c).masked delta := by
  have reply := (on_masked setting.mac alike fitting).1
  have done := audit_masked alike fitting
  have seen : (w.masked delta).sight setting (masked delta body) side c' = w.sight setting body side c := by
    unfold Line.sight Line.outcome
    rw [masked_get, alike]
    exact congrArg (Seen.mk side c.blind) reply
  have ends : (w.masked delta).ends.set side ((audit setting.mac ((setting.ranges.get side).over body) c
        (w.ends.get side)).masked delta) =
      ⟨((w.call setting body side c).ends.c2s).masked delta, ((w.call setting body side c).ends.s2c).masked delta⟩ := by
    cases side <;> rfl
  have shape : (w.masked delta).call setting (masked delta body) side c' =
      ⟨(w.masked delta).ends.set side (audit setting.mac ((setting.ranges.get side).over (masked delta body)) c'
          ((w.masked delta).ends.get side)),
        w.seen ++ [(w.masked delta).sight setting (masked delta body) side c']⟩ := rfl
  rw [shape, masked_get, done, seen, ends]
  rfl

theorem new_line_masked : Line.new setting (masked delta body) = (Line.new setting body).masked delta := by
  unfold Line.new newAudit
  rw [new_masked .client setting.fits, new_masked .server setting.fits]
  rfl

/-- The difference fits every call of the run. -/
theorem fitting_difference {n m : Nat} (authentic : Authentic (Line.after setting body user (m + 1 + n)).seen)
    {c' : PumpCall} (is : c' = (user' (Line.after setting body user m).seen).2) :
    Fitting (difference user user' (Line.after setting body user (m + 1 + n)).seen)
      (user (Line.after setting body user m).seen).2 c'
      ((Line.after setting body user m).outcome setting body (user (Line.after setting body user m).seen).1
        (user (Line.after setting body user m).seen).2).1 := by
  have kept := kept_after setting body user (m + 1 + n) authentic
  obtain ⟨rest, grown⟩ := seen_after setting body user (m + 1) n
  have later := uses_after setting body user (m + 1) n
  rw [after_succ] at grown later
  constructor
  · intro u mem a inside
    apply difference_zero
    intro e there r seals
    refine kept.key_apart (later (user (Line.after setting body user m).seen).1 u ?_) there seals inside
    rw [uses_call]
    exact List.mem_append_right _ mem
  · intro plaintext plaintext' record k need sends sends' result
    rw [seen_call, List.append_assoc] at grown
    have seals : ((Line.after setting body user m).sight setting body (user (Line.after setting body user m).seen).1
        (user (Line.after setting body user m).seen).2).Seals record := ⟨k, need, congrArg PumpReply.blind result⟩
    have covers : Covers (difference user user' _) record _ _ := covers_difference authentic grown seals
    rw [sends, ← is, sends'] at covers
    exact covers

/-- **Masked pads under the other user's plaintexts are seen as the same run.** -/
theorem coupled (alike : Indistinct user user') {n : Nat} (authentic : Authentic (Line.after setting body user n).seen)
    {m : Nat} (within : m ≤ n) :
    Line.after setting (masked (difference user user' (Line.after setting body user n).seen) body) user' m =
      (Line.after setting body user m).masked (difference user user' (Line.after setting body user n).seen) := by
  induction m with
  | zero => exact new_line_masked
  | succ m ih =>
      obtain ⟨k, rfl⟩ := Nat.exists_eq_add_of_le within
      rw [after_succ, after_succ, ih (by omega)]
      obtain ⟨side, call⟩ := alike (Line.after setting body user m).seen
      have seen : ∀ delta, ((Line.after setting body user m).masked delta).seen = (Line.after setting body user m).seen :=
        fun _ => rfl
      rw [seen, ← side]
      exact call_masked call.symm (fitting_difference authentic rfl)

end Coupled

/-! ## Perfect secrecy -/

/-- What an observer sees of so many calls, over a uniform book. -/
noncomputable def Setting.views {σ : Type} (setting : Setting σ) (user : User) (n : Nat) : PMF (List Seen) :=
  (PMF.uniformOfFintype (Body setting.segments)).map fun body => (Line.after setting body user n).seen

/-- **Perfect secrecy.** Two users that differ only in what their plaintexts say show an observer
every view with the same probability, where nothing forged is accepted in it: over a uniform
book, for any one-time MAC, whatever the ranges that are reserved, whatever is delivered or made
up on the line, and for as many calls at both ends as one likes, in any order. -/
theorem perfect_secrecy {σ : Type} (setting : Setting σ) {user user' : User} (alike : Indistinct user user') (n : Nat)
    {view : List Seen} (authentic : Authentic view) : setting.views user n view = setting.views user' n view := by
  have turned : ∀ {user user' : User}, Indistinct user user' → ∀ body : Body setting.segments,
      (Line.after setting body user n).seen = view →
      (Line.after setting (masked (difference user user' view) body) user' n).seen = view := by
    intro user user' alike body shown
    have same := coupled (n := n) alike (shown ▸ authentic) (Nat.le_refl n)
    rw [shown] at same
    rw [same]
    exact shown
  have back : Indistinct user' user := fun seen => ⟨(alike seen).1.symm, (alike seen).2.symm⟩
  apply map_uniform_eq (masked_involutive (difference user user' view))
  · exact turned alike
  · intro body shown
    rw [difference_comm]
    exact turned back body shown

/-! ### One byte, sent and delivered -/

/-- A book of 300 segments of which both ends have reserved the bundle at 1. -/
def threeHundred : Setting Nat where
  mac := zeroMac
  segments := 300
  ranges := ⟨pointerRanges 300, pointerRanges 300⟩
  base := 1
  start := ⟨129, 129⟩
  fits := by decide
  reserved d := by cases d <;> exact Nat.le_refl 129

def oneByte : OtpDataRecord := ⟨.clientToServer, 0, 1, 0, 0, [0x5a], .replicate 16 0⟩

/-- The client sends one byte, and then the server is given that record. -/
def sayOnce (b : UInt8) : User
  | [] => (.clientToServer, .send [b])
  | _ => (.serverToClient, .receive oneByte.encode)

theorem yes_and_no_look_alike :
    let view : List Seen :=
      [⟨.clientToServer, .send [0], .sent (.ok (.record oneByte 1 false))⟩,
        ⟨.serverToClient, .receive oneByte.encode, .received (.ok ⟨[0], false⟩)⟩]
    threeHundred.views (sayOnce 0) 2 view = threeHundred.views (sayOnce 1) 2 view := by
  apply perfect_secrecy
  · intro seen
    cases seen with
    | nil => exact ⟨rfl, rfl⟩
    | cons e rest => exact ⟨rfl, rfl⟩
  · intro before e after split_
    have seals : Seen.Seals ⟨.clientToServer, .send [0], .sent (.ok (.record oneByte 1 false))⟩ oneByte :=
      ⟨1, false, rfl⟩
    rcases before with _ | ⟨first, _ | ⟨second, rest⟩⟩
    · simp only [List.nil_append, List.cons.injEq] at split_
      obtain ⟨rfl, -⟩ := split_
      exact ⟨by rintro _ _ ⟨⟩, by rintro _ _ _ ⟨⟩⟩
    · simp only [List.cons_append, List.nil_append, List.cons.injEq] at split_
      obtain ⟨rfl, rfl, -⟩ := split_
      refine ⟨?_, by rintro _ _ _ ⟨⟩⟩
      intro frame received asked _
      injection asked with frame_
      exact ⟨_, List.mem_singleton.mpr rfl, rfl, oneByte, seals, frame_.symm⟩
    · simp at split_

end Jbuu.FullOtp
