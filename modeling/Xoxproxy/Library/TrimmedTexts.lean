import Mathlib.Data.List.Basic
import Mathlib.Data.List.DropRight
import Mathlib.Data.List.TakeWhile

/-!
# Trimming

A text without the blanks at its ends.
-/

namespace TrimmedTexts

variable {Symbol : Type} {blank : Symbol → Bool} {text item : List Symbol}

def trim (blank : Symbol → Bool) (text : List Symbol) : List Symbol :=
  ((text.dropWhile blank).reverse.dropWhile blank).reverse

/-- A text with no blanks at its ends. -/
structure Trimmed (blank : Symbol → Bool) (item : List Symbol) : Prop where
  first : ∀ symbol, item.head? = some symbol → blank symbol = false
  last : ∀ symbol, item.getLast? = some symbol → blank symbol = false

/-- The item stands between blanks. -/
def Between (blank : Symbol → Bool) (text item : List Symbol) : Prop :=
  ∃ before after, text = before ++ item ++ after ∧
    (∀ symbol ∈ before, blank symbol = true) ∧
    ∀ symbol ∈ after, blank symbol = true

theorem dropWhile_head (text : List Symbol) (symbol : Symbol)
    (first : (text.dropWhile blank).head? = some symbol) :
    blank symbol = false := by
  cases rest : text.dropWhile blank with
  | nil =>
      rw [rest] at first
      cases first
  | cons head tail =>
      rw [rest] at first
      obtain rfl := Option.some.inj first
      have kept := List.dropWhile_get_zero_not blank text (by rw [rest]; simp)
      simpa [rest] using kept

theorem dropWhile_eq_self
    (first : ∀ symbol, text.head? = some symbol → blank symbol = false) :
    text.dropWhile blank = text := by
  cases text with
  | nil => rfl
  | cons head tail =>
      exact List.dropWhile_cons_of_neg (by simp [first head rfl])

/-- The longest run at the front and what is left behind it. -/
theorem takeWhile_dropWhile_iff {front rest : List Symbol} :
    text.takeWhile blank = front ∧ text.dropWhile blank = rest ↔
      text = front ++ rest ∧ (∀ symbol ∈ front, blank symbol = true) ∧
        ∀ symbol, rest.head? = some symbol → blank symbol = false := by
  constructor
  · rintro ⟨rfl, rfl⟩
    exact ⟨List.takeWhile_append_dropWhile.symm,
      fun _ member => List.mem_takeWhile_imp member, dropWhile_head text⟩
  · rintro ⟨rfl, run, stops⟩
    rw [List.takeWhile_append_of_pos run, List.dropWhile_append_of_pos run,
      dropWhile_eq_self stops]
    refine ⟨?_, rfl⟩
    rw [List.append_right_eq_self]
    cases rest with
    | nil => rfl
    | cons head tail =>
        exact List.takeWhile_cons_of_neg (by simp [stops head rfl])

/-- What is trimmed at both ends is left in front of the last blanks. -/
theorem trim_append_rtakeWhile (text : List Symbol) :
    trim blank text ++ (text.dropWhile blank).rtakeWhile blank =
      text.dropWhile blank :=
  List.rdropWhile_append_rtakeWhile

theorem trimmed_trim (blank : Symbol → Bool) (text : List Symbol) :
    Trimmed blank (trim blank text) where
  first := by
    intro symbol first
    apply dropWhile_head text symbol
    rw [← trim_append_rtakeWhile, List.head?_append, first, Option.some_or]
  last := by
    intro symbol last
    rw [trim, List.getLast?_reverse] at last
    exact dropWhile_head _ symbol last

theorem between_trim (blank : Symbol → Bool) (text : List Symbol) :
    Between blank text (trim blank text) := by
  refine ⟨text.takeWhile blank, (text.dropWhile blank).rtakeWhile blank, ?_,
    fun symbol member => List.mem_takeWhile_imp member,
    fun symbol member => List.mem_rtakeWhile_imp member⟩
  rw [List.append_assoc, trim_append_rtakeWhile,
    List.takeWhile_append_dropWhile]

/-- The item between blanks that is itself trimmed is unique. -/
theorem trim_eq_iff :
    trim blank text = item ↔ Between blank text item ∧ Trimmed blank item := by
  constructor
  · rintro rfl
    exact ⟨between_trim blank text, trimmed_trim blank text⟩
  · rintro ⟨⟨before, after, rfl, blankBefore, blankAfter⟩, trimmed⟩
    rw [trim, List.append_assoc, List.dropWhile_append_of_pos blankBefore]
    cases item with
    | nil =>
        have none : after.dropWhile blank = [] :=
          List.dropWhile_eq_nil_iff.mpr blankAfter
        rw [List.nil_append, none]
        rfl
    | cons head tail =>
        have kept : blank head = false := trimmed.first head rfl
        have reversed : ∀ symbol ∈ after.reverse, blank symbol = true :=
          fun symbol member => blankAfter symbol (List.mem_reverse.mp member)
        have whole : (head :: tail ++ after).dropWhile blank =
            head :: tail ++ after :=
          List.dropWhile_cons_of_neg (by simp [kept])
        have ends : (head :: tail).reverse.dropWhile blank =
            (head :: tail).reverse :=
          dropWhile_eq_self fun symbol first =>
            trimmed.last symbol (by rwa [← List.head?_reverse])
        rw [whole, List.reverse_append, List.dropWhile_append_of_pos reversed,
          ends, List.reverse_reverse]

end TrimmedTexts
