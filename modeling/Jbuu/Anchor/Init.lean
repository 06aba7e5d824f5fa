/-
# Anchor.Init — the first pair of anchor files

`init_anchor_pair` of `otp-cli/src/anchorinit.rs`, with everything the system may answer as its
argument: whether the file system is supported, whether a `stat`, an `open`, a `sync` or an
`unlink` succeeds, how a write goes, and what the read back gives. Two paths may name one entry
of a directory; an entry may be a symbolic link.

`write_one` returns its error without a look back: the file it created stays, half written or
unsynced. The caller takes back the first file when the second fails, never the one that failed.
So the pair is all or nothing exactly where no write or sync of a file it created fails, or the
failure ends as one of the cleanup (`all_or_nothing_iff`).
-/
import Mathlib.Logic.Function.Basic
import Jbuu.Anchor.Record
import Jbuu.Platform.Write

namespace Jbuu.AnchorInit

set_option autoImplicit false

open Jbuu.Library.BigEndian (Bytes)

/-! ## Files -/

/-- What a name in a directory is. -/
inductive Entry where
  | file (content : Bytes)
  /-- a symbolic link, and what a read through it gives -/
  | link (target : Option Bytes)
  deriving DecidableEq, Repr

abbrev FileSystem (E : Type) := E → Option Entry

namespace FileSystem

variable {E : Type}

/-- `std::fs::read`, where it does not fail. -/
def read (fs : FileSystem E) (e : E) : Option Bytes :=
  match fs e with
  | some (.file content) => some content
  | some (.link target) => target
  | none => none

/-- `Path::exists`; `stat` is whether the metadata can be had. -/
def pathExists (fs : FileSystem E) (stat : Bool) (e : E) : Bool := stat && (fs.read e).isSome

/-- `Path::is_symlink`. -/
def isSymlink (fs : FileSystem E) (stat : Bool) (e : E) : Bool :=
  stat && match fs e with
    | some (.link _) => true
    | _ => false

variable [DecidableEq E]

def put (fs : FileSystem E) (e : E) (content : Bytes) : FileSystem E := Function.update fs e (some (.file content))

def remove (fs : FileSystem E) (e : E) : FileSystem E := Function.update fs e none

end FileSystem

/-! ## What the system answers -/

/-- To `write_one`. -/
structure WriteAnswers where
  create : Bool
  writes : List WriteSome
  sync : Bool
  syncDir : Bool
  deriving DecidableEq, Repr

/-- To `cleanup_partial`. -/
structure CleanupAnswers where
  unlink : Bool
  stat : Bool
  syncDir : Bool
  deriving DecidableEq, Repr

structure Answers where
  supported : AnchorCopy → Bool
  stat : AnchorCopy → Bool
  lstat : AnchorCopy → Bool
  /-- the read of a file that is in the way -/
  peek : AnchorCopy → Bool
  write : AnchorCopy → WriteAnswers
  /-- the cleanup of A after B failed -/
  undo : CleanupAnswers
  /-- what the read back gives, where it is not what the file holds -/
  readBack : AnchorCopy → Option (Option Bytes)
  /-- the cleanup of both after the read back -/
  discard : AnchorCopy → CleanupAnswers

/-! ## The initialisation -/

inductive AnchorInitError (P : Type) where
  | anchorExists (path : P) (existing : Option BookId) (mismatch : Bool)
  | samePath (path : P)
  | unsupportedFilesystem (path : P)
  | io (path : P)
  | verifyFailed (path : P)
  | cleanupFailed (path : P)
  deriving DecidableEq

structure AnchorInitSummary (P : Type) where
  record : AnchorRecord
  pathA : P
  pathB : P
  deriving DecidableEq

/-- The paths, the directory entries they name, and the hash of the records. -/
structure Paths (P E : Type) where
  sha : Bytes → Digest
  entry : P → E
  path : AnchorCopy → P

namespace Paths

variable {P E : Type} (p : Paths P E)

/-- The entry of a copy. -/
def at_ (copy : AnchorCopy) : E := p.entry (p.path copy)

def existsErr (copy : AnchorCopy) (expected : BookId) (peek : Bool) (fs : FileSystem E) : AnchorInitError P :=
  let existing := do
    let bytes ← if peek then fs.read (p.at_ copy) else none
    let record ← (decodeAndVerify p.sha bytes).toOption
    pure record.bookId
  .anchorExists (p.path copy) existing (existing.any (· ≠ expected))

/-- The record both files get. -/
def bytes (bookId : BookId) : Bytes := encodeRecord p.sha (.init bookId)

variable [DecidableEq E]

def writeOne (copy : AnchorCopy) (expected : BookId) (peek : Bool) (f : WriteAnswers) (fs : FileSystem E) :
    Except (AnchorInitError P) Unit × FileSystem E :=
  if f.create then
    match fs (p.at_ copy) with
    | some _ => (.error (p.existsErr copy expected peek fs), fs)
    | none =>
        let out := writeFull f.writes (p.bytes expected)
        let fs := fs.put (p.at_ copy) out.2
        match out.1 with
        | .error _ => (.error (.io (p.path copy)), fs)
        | .ok () =>
            if f.sync then
              if f.syncDir then (.ok (), fs) else (.error (.io (p.path copy)), fs)
            else (.error (.io (p.path copy)), fs)
  else (.error (.io (p.path copy)), fs)

/-- The result of the directory's sync is dropped. -/
def cleanupPartial (copy : AnchorCopy) (f : CleanupAnswers) (fs : FileSystem E) :
    Except (AnchorInitError P) Unit × FileSystem E :=
  if f.unlink ∧ fs (p.at_ copy) ≠ none then (.ok (), fs.remove (p.at_ copy))
  else if fs.pathExists f.stat (p.at_ copy) then (.error (.cleanupFailed (p.path copy)), fs)
  else (.ok (), fs)

/-- The read back of a copy gives the record. -/
def verifies (copy : AnchorCopy) (bookId : BookId) (readBack : Option (Option Bytes)) (fs : FileSystem E) : Bool :=
  ((readBack.getD (fs.read (p.at_ copy))).bind fun bytes => (decodeAndVerify p.sha bytes).toOption) ==
    some (AnchorRecord.init bookId)

/-- The read back failed: both go. -/
def discardBoth (verify : AnchorInitError P) (f : AnchorCopy → CleanupAnswers) (fs : FileSystem E) :
    Except (AnchorInitError P) (AnchorInitSummary P) × FileSystem E :=
  match p.cleanupPartial .a (f .a) fs with
  | (.error e, fs) => (.error e, fs)
  | (.ok (), fs) =>
      match p.cleanupPartial .b (f .b) fs with
      | (.error e, fs) => (.error e, fs)
      | (.ok (), fs) => (.error verify, fs)

def initAnchorPair [DecidableEq P] (bookId : BookId) (f : Answers) (fs : FileSystem E) :
    Except (AnchorInitError P) (AnchorInitSummary P) × FileSystem E :=
  if p.path .a = p.path .b then (.error (.samePath (p.path .a)), fs)
  else if f.supported .a = false then (.error (.unsupportedFilesystem (p.path .a)), fs)
  else if f.supported .b = false then (.error (.unsupportedFilesystem (p.path .b)), fs)
  else if fs.pathExists (f.stat .a) (p.at_ .a) || fs.isSymlink (f.lstat .a) (p.at_ .a) then
    (.error (p.existsErr .a bookId (f.peek .a) fs), fs)
  else if fs.pathExists (f.stat .b) (p.at_ .b) || fs.isSymlink (f.lstat .b) (p.at_ .b) then
    (.error (p.existsErr .b bookId (f.peek .b) fs), fs)
  else
    match p.writeOne .a bookId (f.peek .a) (f.write .a) fs with
    | (.error e, fs) => (.error e, fs)
    | (.ok (), fs) =>
        match p.writeOne .b bookId (f.peek .b) (f.write .b) fs with
        | (.error e, fs) =>
            match p.cleanupPartial .a f.undo fs with
            | (.error e', fs) => (.error e', fs)
            | (.ok (), fs) => (.error e, fs)
        | (.ok (), fs) =>
            if p.verifies .a bookId (f.readBack .a) fs = false then
              p.discardBoth (.verifyFailed (p.path .a)) f.discard fs
            else if p.verifies .b bookId (f.readBack .b) fs = false then
              p.discardBoth (.verifyFailed (p.path .b)) f.discard fs
            else (.ok ⟨.init bookId, p.path .a, p.path .b⟩, fs)

end Paths

/-! ## All or nothing -/

/-- What the caller is promised: what was there stays as it was; on `Ok` both files are there
with the same valid record; on an error other than that of the cleanup neither file is new. -/
structure AllOrNothing {P E : Type} (p : Paths P E) (bookId : BookId) (fs : FileSystem E)
    (out : Except (AnchorInitError P) (AnchorInitSummary P) × FileSystem E) : Prop where
  kept : ∀ e, fs e ≠ none → out.2 e = fs e
  ok : ∀ summary, out.1 = .ok summary → summary.record = .init bookId ∧
    ∃ bytes, decodeAndVerify p.sha bytes = .ok (.init bookId) ∧ ∀ copy, out.2 (p.at_ copy) = some (.file bytes)
  error : ∀ e, out.1 = .error e → (∀ path, e ≠ .cleanupFailed path) →
    ∀ copy, fs (p.at_ copy) = none → out.2 (p.at_ copy) = none

/-! ## When it is -/

/-- The file is written whole and synced, and so is its directory. -/
def WriteAnswers.Finishes (f : WriteAnswers) (bytes : Bytes) : Prop :=
  (writeFull f.writes bytes).1 = .ok () ∧ f.sync = true ∧ f.syncDir = true

/-- The cleanup reports that it failed. -/
def CleanupAnswers.Fails (f : CleanupAnswers) : Prop := f.unlink = false ∧ f.stat = true

/-- The cleanup leaves the file and does not report it. -/
def CleanupAnswers.Silent (f : CleanupAnswers) : Prop := f.unlink = false ∧ f.stat = false

section

variable {P E : Type} (p : Paths P E) (bookId : BookId) (f : Answers) (fs : FileSystem E)

/-- The first file is created: the paths differ, both are on a supported file system, nothing is
seen in the way, and the `open` goes through. -/
structure Starts : Prop where
  apart : p.path .a ≠ p.path .b
  supported : ∀ copy, f.supported copy = true
  free : ∀ copy, (fs.pathExists (f.stat copy) (p.at_ copy) || fs.isSymlink (f.lstat copy) (p.at_ copy)) = false
  none_ : fs (p.at_ .a) = none
  create : (f.write .a).create = true

/-- The second file is created after the first one. -/
structure Follows : Prop where
  apart : p.at_ .a ≠ p.at_ .b
  none_ : fs (p.at_ .b) = none
  create : (f.write .b).create = true

/-- The read back of a copy is the record, or what the file holds. -/
def ReadsBack (copy : AnchorCopy) : Prop :=
  ∀ read, f.readBack copy = some read →
    (read.bind fun bytes => (decodeAndVerify p.sha bytes).toOption) = some (.init bookId)

/-- From the first file on: no write or sync of a created file fails, but that of the second
where the cleanup of the first reports a failure; and a cleanup removes the file or reports. -/
structure Clears : Prop where
  first : (f.write .a).Finishes (p.bytes bookId)
  second : Follows p f fs → ¬(f.write .b).Finishes (p.bytes bookId) → f.undo.Fails
  undone : ¬Follows p f fs → ¬f.undo.Silent
  discarded : Follows p f fs → (f.write .b).Finishes (p.bytes bookId) → ¬(∀ copy, ReadsBack p bookId f copy) →
    (f.discard .a).Fails ∨ (f.discard .b).Fails ∨ ∀ copy, (f.discard copy).unlink = true

end

namespace Paths

variable {P E : Type} {p : Paths P E} {bookId : BookId} {fs : FileSystem E} {copy : AnchorCopy}

theorem decode_bytes : decodeAndVerify p.sha (p.bytes bookId) = .ok (.init bookId) :=
  decodeAndVerify_encodeRecord p.sha _ ⟨rfl, rfl⟩

variable [DecidableEq E]

/-- What `write_one` does: nothing, or it leaves a file and fails, or it writes the record. -/
theorem writeOne_cases (p : Paths P E) (bookId : BookId) (fs : FileSystem E) (copy : AnchorCopy) (peek : Bool)
    (f : WriteAnswers) :
    (¬(f.create = true ∧ fs (p.at_ copy) = none) ∧ ∃ e, (∀ path, e ≠ .cleanupFailed path) ∧
        p.writeOne copy bookId peek f fs = (.error e, fs)) ∨
      (f.create = true ∧ fs (p.at_ copy) = none) ∧ ¬f.Finishes (p.bytes bookId) ∧
        (∃ content, p.writeOne copy bookId peek f fs = (.error (.io (p.path copy)), fs.put (p.at_ copy) content)) ∨
      (f.create = true ∧ fs (p.at_ copy) = none) ∧ f.Finishes (p.bytes bookId) ∧
        p.writeOne copy bookId peek f fs = (.ok (), fs.put (p.at_ copy) (p.bytes bookId)) := by
  unfold writeOne
  by_cases create : f.create = true
  · rw [if_pos create]
    cases there : fs (p.at_ copy) with
    | some entry => exact .inl ⟨fun creates => (nomatch creates.2), p.existsErr copy bookId peek fs, nofun, rfl⟩
    | none =>
        right
        dsimp only
        cases out : (writeFull f.writes (p.bytes bookId)).1 with
        | error e => exact .inl ⟨⟨create, rfl⟩, fun finishes => (nomatch out.symm.trans finishes.1), _, rfl⟩
        | ok done =>
            dsimp only
            by_cases sync : f.sync = true
            · rw [if_pos sync]
              by_cases syncDir : f.syncDir = true
              · rw [if_pos syncDir, writeFull_of_ok out]
                exact .inr ⟨⟨create, rfl⟩, ⟨out, sync, syncDir⟩, rfl⟩
              · rw [if_neg syncDir]
                exact .inl ⟨⟨create, rfl⟩, fun finishes => syncDir finishes.2.2, _, rfl⟩
            · rw [if_neg sync]
              exact .inl ⟨⟨create, rfl⟩, fun finishes => sync finishes.2.1, _, rfl⟩
  · rw [if_neg create]
    exact .inl ⟨fun creates => create creates.1, .io (p.path copy), nofun, rfl⟩

/-- What `cleanup_partial` does to a file that is there. -/
theorem cleanupPartial_cases {content : Bytes} (there : fs (p.at_ copy) = some (.file content)) (f : CleanupAnswers) :
    (f.unlink = true ∧ p.cleanupPartial copy f fs = (.ok (), fs.remove (p.at_ copy))) ∨
      (f.Fails ∧ p.cleanupPartial copy f fs = (.error (.cleanupFailed (p.path copy)), fs)) ∨
      f.Silent ∧ p.cleanupPartial copy f fs = (.ok (), fs) := by
  have read : fs.read (p.at_ copy) = some content := by
    unfold FileSystem.read
    rw [there]
  unfold cleanupPartial FileSystem.pathExists CleanupAnswers.Fails CleanupAnswers.Silent
  rw [there, read]
  rcases f with ⟨_ | _, _ | _, syncDir⟩ <;> simp

end Paths

/-! ### The ends of a call -/

section Ends

variable {P E : Type} {p : Paths P E} {bookId : BookId} {fs fs' : FileSystem E} {copy : AnchorCopy}

/-- What was there is as it was. -/
def Spares (fs fs' : FileSystem E) : Prop := ∀ e, fs e ≠ none → fs' e = fs e

theorem Spares.refl (fs : FileSystem E) : Spares fs fs := fun _ _ => rfl

theorem Spares.update [DecidableEq E] (spares : Spares fs fs') {e : E} (none_ : fs e = none) (entry : Option Entry) :
    Spares fs (Function.update fs' e entry) := by
  intro e' some_
  have apart : e' ≠ e := by
    rintro rfl
    exact some_ none_
  rw [Function.update_of_ne apart]
  exact spares e' some_

/-- An error after which the two entries are as they were. -/
theorem AllOrNothing.of_error {e : AnchorInitError P} (spares : Spares fs fs')
    (none_ : ∀ copy, fs (p.at_ copy) = none → fs' (p.at_ copy) = none) :
    AllOrNothing p bookId fs (.error e, fs') :=
  ⟨spares, fun _ same => (nomatch same), fun _ _ _ => none_⟩

theorem AllOrNothing.unchanged (e : AnchorInitError P) : AllOrNothing p bookId fs (.error e, fs) :=
  .of_error (.refl fs) fun _ => id

/-- A failed cleanup is reported, whatever it leaves. -/
theorem AllOrNothing.of_cleanupFailed {path : P} (spares : Spares fs fs') :
    AllOrNothing p bookId fs (.error (.cleanupFailed path), fs') :=
  ⟨spares, fun _ same => (nomatch same), fun _ same other => absurd (Except.error.inj same).symm (other path)⟩

/-- A new file that stays behind an error. -/
theorem not_of_left {e : AnchorInitError P} (other : ∀ path, e ≠ .cleanupFailed path)
    (none_ : fs (p.at_ copy) = none) (left : fs' (p.at_ copy) ≠ none) : ¬AllOrNothing p bookId fs (.error e, fs') :=
  fun promise => left (promise.error e rfl other copy none_)

end Ends

section Calls

variable {P E : Type} {p : Paths P E} {bookId : BookId} {f : Answers} {fs : FileSystem E}

/-- The read back of a file that holds the record. -/
theorem Paths.verifies_iff {fs' : FileSystem E} {copy : AnchorCopy}
    (there : fs' (p.at_ copy) = some (.file (p.bytes bookId))) :
    p.verifies copy bookId (f.readBack copy) fs' = true ↔ ReadsBack p bookId f copy := by
  have read : fs'.read (p.at_ copy) = some (p.bytes bookId) := by
    unfold FileSystem.read
    rw [there]
  unfold Paths.verifies ReadsBack
  rw [read, beq_iff_eq]
  cases f.readBack copy with
  | none =>
      refine ⟨nofun, fun _ => ?_⟩
      show (decodeAndVerify p.sha (p.bytes bookId)).toOption = _
      rw [Paths.decode_bytes]
      rfl
  | some read =>
      refine ⟨fun same read' eq => ?_, fun all => all read rfl⟩
      rw [← Option.some.inj eq]
      exact same

variable [DecidableEq E] {content content' : Bytes} {e : AnchorInitError P}

/-- The first file is there, and the second call touched nothing. -/
theorem undo_iff (other : ∀ path, e ≠ .cleanupFailed path) (none_ : fs (p.at_ .a) = none) (c : CleanupAnswers) :
    AllOrNothing p bookId fs (match p.cleanupPartial .a c (fs.put (p.at_ .a) content) with
      | (.error e', fs) => (.error e', fs)
      | (.ok (), fs) => (.error e, fs)) ↔ ¬c.Silent := by
  have there : fs.put (p.at_ .a) content (p.at_ .a) = some (.file content) := Function.update_self ..
  have spares : Spares fs (fs.put (p.at_ .a) content) := (Spares.refl fs).update none_ _
  rcases Paths.cleanupPartial_cases there c with ⟨unlink, same⟩ | ⟨fails, same⟩ | ⟨silent, same⟩
  · rw [same]
    refine iff_of_true (.of_error (spares.update none_ none) fun copy free => ?_) fun silent => ?_
    · show Function.update (Function.update fs _ _) _ none _ = none
      rw [Function.update_idem]
      by_cases one : p.at_ copy = p.at_ .a
      · rw [one, Function.update_self]
      · rw [Function.update_of_ne one]
        exact free
    · exact nomatch unlink.symm.trans silent.1
  · rw [same]
    exact iff_of_true (.of_cleanupFailed spares) fun silent => nomatch fails.2.symm.trans silent.2
  · rw [same]
    refine iff_of_false (not_of_left other none_ ?_) (not_not_intro silent)
    rw [there]
    nofun

/-- The first file is there, and the second one as far as it got. -/
theorem undo_left_iff (other : ∀ path, e ≠ .cleanupFailed path) (none_ : fs (p.at_ .a) = none)
    (follows : fs (p.at_ .b) = none) (apart : p.at_ .a ≠ p.at_ .b) (c : CleanupAnswers) :
    AllOrNothing p bookId fs
      (match p.cleanupPartial .a c ((fs.put (p.at_ .a) content).put (p.at_ .b) content') with
        | (.error e', fs) => (.error e', fs)
        | (.ok (), fs) => (.error e, fs)) ↔ c.Fails := by
  have second : (fs.put (p.at_ .a) content).put (p.at_ .b) content' (p.at_ .b) = some (.file content') :=
    Function.update_self ..
  have first : (fs.put (p.at_ .a) content).put (p.at_ .b) content' (p.at_ .a) = some (.file content) :=
    (Function.update_of_ne apart _ _).trans (Function.update_self ..)
  have spares : Spares fs ((fs.put (p.at_ .a) content).put (p.at_ .b) content') :=
    ((Spares.refl fs).update none_ _).update follows _
  rcases Paths.cleanupPartial_cases first c with ⟨unlink, same⟩ | ⟨fails, same⟩ | ⟨silent, same⟩
  · rw [same]
    refine iff_of_false (not_of_left other follows ?_) fun fails => nomatch unlink.symm.trans fails.1
    have left := Function.update_of_ne (Ne.symm apart) none ((fs.put (p.at_ .a) content).put (p.at_ .b) content')
    exact fun gone => nomatch second.symm.trans (left.symm.trans gone)
  · rw [same]
    exact iff_of_true (.of_cleanupFailed spares) fails
  · rw [same]
    refine iff_of_false (not_of_left other follows ?_) fun fails => nomatch fails.2.symm.trans silent.2
    rw [second]
    nofun

/-- Both files are there, and the read back failed. -/
theorem discardBoth_iff (other : ∀ path, e ≠ .cleanupFailed path) (none_ : fs (p.at_ .a) = none)
    (follows : fs (p.at_ .b) = none) (apart : p.at_ .a ≠ p.at_ .b) (c : AnchorCopy → CleanupAnswers) :
    AllOrNothing p bookId fs (p.discardBoth e c ((fs.put (p.at_ .a) content).put (p.at_ .b) content')) ↔
      (c .a).Fails ∨ (c .b).Fails ∨ ∀ copy, (c copy).unlink = true := by
  have first : (fs.put (p.at_ .a) content).put (p.at_ .b) content' (p.at_ .a) = some (.file content) :=
    (Function.update_of_ne apart _ _).trans (Function.update_self ..)
  have spares : Spares fs ((fs.put (p.at_ .a) content).put (p.at_ .b) content') :=
    ((Spares.refl fs).update none_ _).update follows _
  have second : (fs.put (p.at_ .a) content).put (p.at_ .b) content' (p.at_ .b) = some (.file content') :=
    Function.update_self ..
  generalize (fs.put (p.at_ .a) content).put (p.at_ .b) content' = both at *
  have removed : both.remove (p.at_ .a) (p.at_ .b) = some (.file content') :=
    (Function.update_of_ne (Ne.symm apart) _ _).trans second
  unfold Paths.discardBoth
  rcases Paths.cleanupPartial_cases first (c .a) with ⟨unlink, same⟩ | ⟨fails, same⟩ | ⟨silent, same⟩
  · rw [same]
    dsimp only
    have apartA : ¬(c .a).Fails := fun fails => nomatch unlink.symm.trans fails.1
    rcases Paths.cleanupPartial_cases removed (c .b) with ⟨unlink', same⟩ | ⟨fails, same⟩ | ⟨silent, same⟩
    · rw [same]
      refine iff_of_true (.of_error ((spares.update none_ none).update follows none) fun copy _ => ?_)
        (.inr (.inr fun copy => by cases copy <;> assumption))
      cases copy with
      | a => exact (Function.update_of_ne apart _ _).trans (Function.update_self ..)
      | b => exact Function.update_self ..
    · rw [same]
      exact iff_of_true (.of_cleanupFailed (spares.update none_ none)) (.inr (.inl fails))
    · rw [same]
      refine iff_of_false (not_of_left other follows (by rw [removed]; nofun)) ?_
      rintro (fails | fails | all)
      · exact apartA fails
      · exact nomatch fails.2.symm.trans silent.2
      · exact nomatch (all .b).symm.trans silent.1
  · rw [same]
    exact iff_of_true (.of_cleanupFailed spares) (.inl fails)
  · rw [same]
    dsimp only
    have left : both (p.at_ .a) ≠ none := by
      rw [first]
      nofun
    have apartA : ¬(c .a).Fails := fun fails => nomatch fails.2.symm.trans silent.2
    rcases Paths.cleanupPartial_cases second (c .b) with ⟨unlink', same⟩ | ⟨fails, same⟩ | ⟨silent', same⟩
    · rw [same]
      refine iff_of_false (not_of_left other none_ ?_) ?_
      · show Function.update both (p.at_ .b) none (p.at_ .a) ≠ none
        rw [Function.update_of_ne apart]
        exact left
      · rintro (fails | fails | all)
        · exact apartA fails
        · exact nomatch unlink'.symm.trans fails.1
        · exact nomatch (all .a).symm.trans silent.1
    · rw [same]
      exact iff_of_true (.of_cleanupFailed spares) (.inr (.inl fails))
    · rw [same]
      refine iff_of_false (not_of_left other none_ left) ?_
      rintro (fails | fails | all)
      · exact apartA fails
      · exact nomatch fails.2.symm.trans silent'.2
      · exact nomatch (all .a).symm.trans silent.1

end Calls

/-- **All or nothing**: what was there is kept, on `Ok` both files hold the record, and on an
error other than that of a cleanup neither file is new, exactly where a call that creates the
first file clears up. -/
theorem all_or_nothing_iff {P E : Type} [DecidableEq P] [DecidableEq E] (p : Paths P E) (bookId : BookId) (f : Answers)
    (fs : FileSystem E) :
    AllOrNothing p bookId fs (p.initAnchorPair bookId f fs) ↔ (Starts p f fs → Clears p bookId f fs) := by
  -- an end at which nothing was done
  have unchanged : ∀ e, ¬Starts p f fs →
      (AllOrNothing p bookId fs (.error e, fs) ↔ (Starts p f fs → Clears p bookId f fs)) :=
    fun e no => iff_of_true (.unchanged e) fun starts => absurd starts no
  unfold Paths.initAnchorPair
  by_cases same : p.path .a = p.path .b
  · rw [if_pos same]
    exact unchanged _ fun starts => starts.apart same
  rw [if_neg same]
  by_cases unsupported : f.supported .a = false
  · rw [if_pos unsupported]
    exact unchanged _ fun starts => nomatch unsupported.symm.trans (starts.supported .a)
  rw [if_neg unsupported]
  by_cases unsupported' : f.supported .b = false
  · rw [if_pos unsupported']
    exact unchanged _ fun starts => nomatch unsupported'.symm.trans (starts.supported .b)
  rw [if_neg unsupported']
  by_cases seen : (fs.pathExists (f.stat .a) (p.at_ .a) || fs.isSymlink (f.lstat .a) (p.at_ .a)) = true
  · rw [if_pos seen]
    exact unchanged _ fun starts => nomatch seen.symm.trans (starts.free .a)
  rw [if_neg seen]
  by_cases seen' : (fs.pathExists (f.stat .b) (p.at_ .b) || fs.isSymlink (f.lstat .b) (p.at_ .b)) = true
  · rw [if_pos seen']
    exact unchanged _ fun starts => nomatch seen'.symm.trans (starts.free .b)
  rw [if_neg seen']
  rcases p.writeOne_cases bookId fs .a (f.peek .a) (f.write .a) with
    ⟨no, e, -, out⟩ | ⟨⟨create, none_⟩, unfinished, content, out⟩ | ⟨⟨create, none_⟩, first, out⟩
  · rw [out]
    exact unchanged _ fun starts => no ⟨starts.create, starts.none_⟩
  all_goals
    have starts : Starts p f fs := by
      refine ⟨same, fun copy => ?_, fun copy => ?_, none_, create⟩
      · cases copy with
        | a => exact eq_true_of_ne_false unsupported
        | b => exact eq_true_of_ne_false unsupported'
      · cases copy with
        | a => exact eq_false_of_ne_true seen
        | b => exact eq_false_of_ne_true seen'
    have since : (Starts p f fs → Clears p bookId f fs) ↔ Clears p bookId f fs := forall_prop_of_true starts
    rw [since, out]
    dsimp only
  · refine iff_of_false (not_of_left nofun none_ ?_) fun clears => unfinished clears.first
    show fs.put (p.at_ .a) content (p.at_ .a) ≠ none
    rw [FileSystem.put, Function.update_self]
    nofun
  · have follows_iff : Follows p f fs ↔
        (f.write .b).create = true ∧ fs.put (p.at_ .a) (p.bytes bookId) (p.at_ .b) = none := by
      unfold FileSystem.put
      by_cases one : p.at_ .b = p.at_ .a
      · rw [one, Function.update_self]
        exact iff_of_false (fun follows => follows.apart one.symm) fun free => nomatch free.2
      · rw [Function.update_of_ne one]
        exact ⟨fun follows => ⟨follows.create, follows.none_⟩, fun free => ⟨Ne.symm one, free.2, free.1⟩⟩
    rcases p.writeOne_cases bookId (fs.put (p.at_ .a) (p.bytes bookId)) .b (f.peek .b) (f.write .b) with
      ⟨no, e, other, out'⟩ | ⟨yes, unfinished, content, out'⟩ | ⟨yes, second, out'⟩
    · rw [out']
      dsimp only
      rw [undo_iff other none_]
      have no := mt follows_iff.mp no
      exact ⟨fun silent => ⟨first, fun yes => absurd yes no, fun _ => silent, fun yes => absurd yes no⟩,
        fun clears => clears.undone no⟩
    · have follows := follows_iff.mpr yes
      rw [out']
      dsimp only
      have other : ∀ path, (.io (p.path .b) : AnchorInitError P) ≠ .cleanupFailed path := nofun
      rw [undo_left_iff other none_ follows.none_ follows.apart]
      exact ⟨fun fails => ⟨first, fun _ _ => fails, absurd follows, fun _ done => absurd done unfinished⟩,
        fun clears => clears.second follows unfinished⟩
    · have follows := follows_iff.mpr yes
      rw [out']
      dsimp only
      have hold : ∀ copy, (fs.put (p.at_ .a) (p.bytes bookId)).put (p.at_ .b) (p.bytes bookId) (p.at_ copy) =
          some (.file (p.bytes bookId)) := by
        intro copy
        cases copy with
        | a => exact (Function.update_of_ne follows.apart _ _).trans (Function.update_self ..)
        | b => exact Function.update_self ..
      -- a read back that fails ends in the cleanup of both
      have discards : ∀ e, (∀ path, e ≠ .cleanupFailed path) → ¬(∀ copy, ReadsBack p bookId f copy) →
          (AllOrNothing p bookId fs (p.discardBoth e f.discard
            ((fs.put (p.at_ .a) (p.bytes bookId)).put (p.at_ .b) (p.bytes bookId))) ↔ Clears p bookId f fs) := by
        intro e other differs
        rw [discardBoth_iff other none_ follows.none_ follows.apart]
        exact ⟨fun gone => ⟨first, fun _ undone => absurd second undone, absurd follows, fun _ _ _ => gone⟩,
          fun clears => clears.discarded follows second differs⟩
      split
      · rename_i differs
        refine discards (.verifyFailed _) nofun fun all => ?_
        rw [(Paths.verifies_iff (hold .a)).mpr (all .a)] at differs
        nomatch differs
      · rename_i readsA
        split
        · rename_i differs
          refine discards (.verifyFailed _) nofun fun all => ?_
          rw [(Paths.verifies_iff (hold .b)).mpr (all .b)] at differs
          nomatch differs
        · rename_i readsB
          have spares : Spares fs ((fs.put (p.at_ .a) (p.bytes bookId)).put (p.at_ .b) (p.bytes bookId)) :=
            ((Spares.refl fs).update none_ _).update follows.none_ _
          refine iff_of_true ⟨spares, fun summary ok => ?_, nofun⟩
            ⟨first, fun _ undone => absurd second undone, absurd follows, fun _ _ differs => absurd (fun copy => ?_) differs⟩
          · rw [← Except.ok.inj ok]
            exact ⟨rfl, _, Paths.decode_bytes, hold⟩
          · cases copy with
            | a => exact (Paths.verifies_iff (hold .a)).mp (eq_true_of_ne_false readsA)
            | b => exact (Paths.verifies_iff (hold .b)).mp (eq_true_of_ne_false readsB)

/-- The system does as it is asked. -/
def willing : Answers where
  supported _ := true
  stat _ := true
  lstat _ := true
  peek _ := true
  write _ := { create := true, writes := [], sync := true, syncDir := true }
  undo := { unlink := true, stat := true, syncDir := true }
  readBack _ := none
  discard _ := { unlink := true, stat := true, syncDir := true }

/-- The medium of `copy` is full after ten bytes. -/
def fullAt (copy : AnchorCopy) : Answers :=
  { willing with
    write c := { willing.write c with writes := if c = copy then [.wrote 10, .failed .noSpace] else [] } }

/-- The file whose write fails stays, the first one as well as the second: only the first is taken
back, and only for the second. -/
theorem failed_file_is_left :
    let p : Paths AnchorCopy AnchorCopy := ⟨fun _ => .replicate 32 0, id, id⟩
    let bookId : BookId := ⟨.replicate 16 0⟩
    let outA := p.initAnchorPair bookId (fullAt .a) fun _ => none
    let outB := p.initAnchorPair bookId (fullAt .b) fun _ => none
    (outA.1 = .error (.io .a) ∧ outA.2 .a = some (.file ((p.bytes bookId).take 10)) ∧ outA.2 .b = none) ∧
      outB.1 = .error (.io .b) ∧ outB.2 .a = none ∧ outB.2 .b = some (.file ((p.bytes bookId).take 10)) := by
  decide +kernel

end Jbuu.AnchorInit
