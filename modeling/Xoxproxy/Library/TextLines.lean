import Mathlib.Algebra.GroupWithZero.Nat
import Mathlib.Data.List.Basic

/-!
# Lines of a text

A text is cut at its newlines into the lines that a newline ends and an
unfinished tail.
-/

namespace TextLines

/-- The finished lines of a text, without their newlines, and the
unfinished tail. -/
def splitLines : List Char → List (List Char) × List Char
  | [] => ([], [])
  | char :: rest =>
      if char = '\n' then
        ([] :: (splitLines rest).1, (splitLines rest).2)
      else
        match (splitLines rest).1 with
        | [] => ([], char :: (splitLines rest).2)
        | line :: lines => ((char :: line) :: lines, (splitLines rest).2)

/-- All lines of a text; an unfinished tail counts when it is not
empty. -/
def allLines (text : List Char) : List (List Char) :=
  (splitLines text).1 ++
    if (splitLines text).2 = [] then [] else [(splitLines text).2]

/-- The text made of the given lines, each ended by a newline. -/
def joinLines (lines : List (List Char)) : List Char :=
  lines.flatMap fun line => line ++ ['\n']

@[simp]
theorem splitLines_nil : splitLines [] = ([], []) := rfl

@[simp]
theorem splitLines_newline (rest : List Char) :
    splitLines ('\n' :: rest) =
      ([] :: (splitLines rest).1, (splitLines rest).2) := by
  simp [splitLines]

theorem splitLines_cons_of_ne
    {char : Char} (rest : List Char) (different : char ≠ '\n') :
    splitLines (char :: rest) =
      match (splitLines rest).1 with
      | [] => ([], char :: (splitLines rest).2)
      | line :: lines =>
          ((char :: line) :: lines, (splitLines rest).2) := by
  simp [splitLines, different]

/-- A newline-free stretch before a newline is one line. -/
theorem splitLines_line
    {line : List Char} (rest : List Char) (free : '\n' ∉ line) :
    splitLines (line ++ '\n' :: rest) =
      (line :: (splitLines rest).1, (splitLines rest).2) := by
  induction line with
  | nil => simp
  | cons char line inductionHypothesis =>
      have different : char ≠ '\n' := by
        rintro rfl
        exact free List.mem_cons_self
      have lineFree : '\n' ∉ line := fun member =>
        free (List.mem_cons_of_mem char member)
      rw [List.cons_append, splitLines_cons_of_ne _ different,
        inductionHypothesis lineFree]

/-- Text that follows a finished block is split on its own. -/
theorem splitLines_append
    {block : List Char} (rest : List Char)
    (finished : (splitLines block).2 = []) :
    splitLines (block ++ rest) =
      ((splitLines block).1 ++ (splitLines rest).1,
        (splitLines rest).2) := by
  induction block with
  | nil => simp
  | cons char block inductionHypothesis =>
      by_cases newline : char = '\n'
      · subst newline
        have blockFinished : (splitLines block).2 = [] := by
          simpa using finished
        simp [inductionHypothesis blockFinished]
      · rw [splitLines_cons_of_ne _ newline] at finished
        rw [List.cons_append, splitLines_cons_of_ne _ newline,
          splitLines_cons_of_ne _ newline]
        cases blockLines : (splitLines block).1 with
        | nil =>
            rw [blockLines] at finished
            exact absurd finished (List.cons_ne_nil _ _)
        | cons line lines =>
            rw [blockLines] at finished
            rw [inductionHypothesis finished, blockLines]
            rfl

theorem splitLines_joinLines_append
    {lines : List (List Char)} (rest : List Char)
    (free : ∀ line ∈ lines, '\n' ∉ line) :
    splitLines (joinLines lines ++ rest) =
      (lines ++ (splitLines rest).1, (splitLines rest).2) := by
  induction lines with
  | nil => simp [joinLines]
  | cons line lines inductionHypothesis =>
      have lineFree := free line List.mem_cons_self
      have linesFree : ∀ other ∈ lines, '\n' ∉ other :=
        fun other member => free other (List.mem_cons_of_mem line member)
      have shape :
          joinLines (line :: lines) ++ rest =
            line ++ '\n' :: (joinLines lines ++ rest) := by
        simp [joinLines]
      rw [shape, splitLines_line _ lineFree,
        inductionHypothesis linesFree]
      rfl

@[simp]
theorem joinLines_nil : joinLines [] = [] := rfl

@[simp]
theorem joinLines_cons (line : List Char) (lines : List (List Char)) :
    joinLines (line :: lines) = line ++ '\n' :: joinLines lines := by
  simp [joinLines]

@[simp]
theorem joinLines_append (first second : List (List Char)) :
    joinLines (first ++ second) =
      joinLines first ++ joinLines second := by
  simp [joinLines]

/-- A text that ends in a newline has a line and no unfinished tail. -/
theorem splitLines_ended (head : List Char) :
    (splitLines (head ++ ['\n'])).1 ≠ [] ∧
      (splitLines (head ++ ['\n'])).2 = [] := by
  induction head with
  | nil => simp
  | cons char head inductionHypothesis =>
      obtain ⟨nonempty, finished⟩ := inductionHypothesis
      by_cases newline : char = '\n'
      · subst newline
        simpa using finished
      · rw [List.cons_append, splitLines_cons_of_ne _ newline]
        cases headLines : (splitLines (head ++ ['\n'])).1 with
        | nil => exact absurd headLines nonempty
        | cons line lines => exact ⟨List.cons_ne_nil _ _, finished⟩

/-- There are as many finished lines as newlines. -/
theorem length_splitLines (text : List Char) :
    (splitLines text).1.length = text.count '\n' := by
  induction text with
  | nil => rfl
  | cons char text inductionHypothesis =>
      by_cases newline : char = '\n'
      · subst newline
        rw [splitLines_newline, List.length_cons, inductionHypothesis,
          List.count_cons_self]
      · rw [splitLines_cons_of_ne _ newline, List.count_cons_of_ne newline,
          ← inductionHypothesis]
        cases (splitLines text).1 <;> rfl

theorem count_joinLines (lines : List (List Char)) :
    (joinLines lines).count '\n' =
      lines.length + (lines.map fun line => line.count '\n').sum := by
  induction lines with
  | nil => rfl
  | cons line lines inductionHypothesis =>
      rw [joinLines_cons, List.count_append, List.count_cons_self,
        inductionHypothesis, List.length_cons, List.map_cons,
        List.sum_cons]
      omega

theorem joinLines_finished (lines : List (List Char)) :
    (splitLines (joinLines lines)).2 = [] := by
  induction lines with
  | nil => rfl
  | cons line lines inductionHypothesis =>
      have shape : joinLines (line :: lines) =
          (line ++ ['\n']) ++ joinLines lines := by
        simp
      rw [shape, splitLines_append _ (splitLines_ended line).2]
      exact inductionHypothesis

/-- Newline-free lines are read back. -/
theorem allLines_joinLines {lines : List (List Char)}
    (free : ∀ line ∈ lines, '\n' ∉ line) :
    allLines (joinLines lines) = lines := by
  have split := splitLines_joinLines_append [] free
  rw [List.append_nil] at split
  rw [allLines, split]
  simp

/-- A newline inside a line makes lines of its own. -/
theorem length_allLines_joinLines_iff (lines : List (List Char)) :
    (allLines (joinLines lines)).length = lines.length ↔
      ∀ line ∈ lines, '\n' ∉ line := by
  rw [allLines, joinLines_finished, if_pos rfl, List.append_nil,
    length_splitLines, count_joinLines, Nat.add_eq_left,
    List.sum_eq_zero_iff_forall_eq_nat]
  simp [List.count_eq_zero]

end TextLines
