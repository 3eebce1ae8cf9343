import Mathlib.Data.List.Infix

/-!
# Lexicographic order of texts

Texts with fronts of equal length are ordered by their fronts, and then by
what follows.  Where two fronts differ at some place, what follows does not
matter.
-/

namespace TextOrder

variable {Symbol : Type} [LT Symbol]

theorem append_lt_append_iff
    {first second left right : List Symbol}
    (same : first.length = second.length) :
    first ++ left < second ++ right ↔
      first < second ∨ first = second ∧ left < right := by
  induction first generalizing second with
  | nil =>
      have empty : second = [] := List.eq_nil_of_length_eq_zero same.symm
      subst empty
      simp
  | cons symbol rest induction =>
      cases second with
      | nil => cases same
      | cons other behind =>
          have shorter : rest.length = behind.length := by
            simpa using same
          have later := induction shorter
          rw [List.cons_append, List.cons_append, List.cons_lt_cons_iff,
            List.cons_lt_cons_iff, List.cons.injEq, later]
          tauto

/-- A common front does not matter. -/
theorem cons_lt_cons_self_iff
    {symbol : Symbol} {left right : List Symbol}
    (irreflexive : ¬ symbol < symbol) :
    symbol :: left < symbol :: right ↔ left < right := by
  rw [List.cons_lt_cons_iff]
  simp [irreflexive]

/-- Behind a difference nothing matters. -/
theorem append_lt_append_iff_of_diverging
    {first second : List Symbol}
    (apart : ¬ first <+: second) (alsoApart : ¬ second <+: first)
    (left right otherLeft otherRight : List Symbol) :
    first ++ left < second ++ right ↔
      first ++ otherLeft < second ++ otherRight := by
  induction first generalizing second with
  | nil => exact absurd (List.nil_prefix) apart
  | cons symbol rest induction =>
      cases second with
      | nil => exact absurd (List.nil_prefix) alsoApart
      | cons other behind =>
          simp only [List.cons_append, List.cons_lt_cons_iff]
          by_cases same : symbol = other
          · subst same
            rw [List.prefix_cons_inj] at apart alsoApart
            have later := induction apart alsoApart
            rw [later]
          · simp [same]

end TextOrder
