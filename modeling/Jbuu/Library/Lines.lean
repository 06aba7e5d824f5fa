/-
# Library.Lines — the lines of a file

`splitLines` cuts a sequence behind every separator: the lines that are ended, without
their separators, and what follows the last one. Lines without a separator inside, each
ended by one, come back as they are (`completeLines_flatMap`).
-/
import Mathlib.Logic.Basic
import Mathlib.Data.List.Basic

namespace Jbuu.Library

set_option autoImplicit false

variable {α : Type} [DecidableEq α] (sep : α)

/-- One more element in front of lines and rest. -/
def consLine (x : α) : List (List α) × List α → List (List α) × List α
  | ([], tail) => ([], x :: tail)
  | (line :: lines, tail) => ((x :: line) :: lines, tail)

def splitLines : List α → List (List α) × List α
  | [] => ([], [])
  | x :: rest =>
      if x = sep then ([] :: (splitLines rest).1, (splitLines rest).2)
      else consLine x (splitLines rest)

/-- The lines that are ended. -/
def completeLines (text : List α) : List (List α) := (splitLines sep text).1

variable {sep}

theorem splitLines_line {line : List α} (whole : sep ∉ line) (rest : List α) :
    splitLines sep (line ++ sep :: rest) =
      (line :: (splitLines sep rest).1, (splitLines sep rest).2) := by
  induction line with
  | nil => simp [splitLines]
  | cons x line ih =>
      simp only [List.mem_cons, not_or] at whole
      rw [List.cons_append, splitLines, if_neg (Ne.symm whole.1), ih whole.2]
      rfl

theorem splitLines_tail {tail : List α} (open_ : sep ∉ tail) : splitLines sep tail = ([], tail) := by
  induction tail with
  | nil => rfl
  | cons x tail ih =>
      simp only [List.mem_cons, not_or] at open_
      rw [splitLines, if_neg (Ne.symm open_.1), ih open_.2]
      rfl

/-- Lines written one after the other, and a part of one more. -/
theorem completeLines_flatMap {lines : List (List α)} (whole : ∀ line ∈ lines, sep ∉ line)
    {tail : List α} (open_ : sep ∉ tail) :
    completeLines sep (lines.flatMap (· ++ [sep]) ++ tail) = lines := by
  induction lines with
  | nil =>
      rw [List.flatMap_nil, List.nil_append, completeLines, splitLines_tail open_]
  | cons line lines ih =>
      have rest := ih fun l mem => whole l (List.mem_cons_of_mem _ mem)
      rw [List.flatMap_cons, List.append_assoc, List.append_assoc, completeLines, List.cons_append,
        List.nil_append, splitLines_line (whole line (List.mem_cons_self ..))]
      exact congrArg (line :: ·) rest

theorem completeLines_line {line : List α} (whole : sep ∉ line) (rest : List α) :
    completeLines sep (line ++ sep :: rest) = line :: completeLines sep rest := by
  rw [completeLines, splitLines_line whole]
  rfl

/-- What stands in front of a text is in front of its first line. -/
theorem completeLines_append {front : List α} (open_ : sep ∉ front) (text : List α) :
    completeLines sep (front ++ text) = (completeLines sep text).modifyHead (front ++ ·) := by
  induction front with
  | nil =>
      rw [List.nil_append]
      cases completeLines sep text <;> rfl
  | cons x front ih =>
      simp only [List.mem_cons, not_or] at open_
      have rest := ih open_.2
      unfold completeLines at rest ⊢
      rw [List.cons_append, splitLines, if_neg (Ne.symm open_.1)]
      generalize splitLines sep (front ++ text) = split_ at rest ⊢
      obtain ⟨lines, tail⟩ := split_
      dsimp only at rest
      subst rest
      cases (splitLines sep text).1 <;> rfl

/-- A text with a separator has a line that is ended. -/
theorem completeLines_ne_nil {text : List α} (mem : sep ∈ text) : completeLines sep text ≠ [] := by
  obtain ⟨front, back, split, open_⟩ := List.eq_append_cons_of_mem mem
  rw [split, completeLines_line open_]
  nofun

end Jbuu.Library
