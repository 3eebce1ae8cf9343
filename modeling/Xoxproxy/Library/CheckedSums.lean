import Mathlib.Algebra.BigOperators.Group.List.Basic
import Mathlib.Algebra.Order.BigOperators.Group.List
import Mathlib.Algebra.Order.Group.Int
import Mathlib.Algebra.Ring.Int.Defs

/-!
# Sums that must stay in a range

A sum is formed term by term, and fails where a term or a partial sum lies
outside a range.
-/

namespace CheckedSums

/-- Some of the items amount to less than all of them. -/
theorem sum_le_of_subperm {Item Amount : Type} [AddCommMonoid Amount]
    [PartialOrder Amount] [IsOrderedAddMonoid Amount]
    {amount : Item → Amount} {first second : List Item}
    (part : first.Subperm second)
    (nonneg : ∀ item ∈ second, 0 ≤ amount item) :
    (first.map amount).sum ≤ (second.map amount).sum := by
  obtain ⟨reordered, permuted, fewer⟩ := part
  rw [← (permuted.map amount).sum_eq]
  refine (fewer.map amount).sum_le_sum fun value listed => ?_
  obtain ⟨item, member, rfl⟩ := List.mem_map.mp listed
  exact nonneg item member

section Sums

variable (fits : Int → Bool)

/-- Whether terms can be added to a total one by one. -/
def addableTo (total : Int) : List Int → Bool
  | [] => true
  | term :: rest =>
      fits term && fits (total + term) && addableTo (total + term) rest

/-- Whether terms can be added up. -/
def addable (terms : List Int) : Bool := addableTo fits 0 terms

variable {fits} {limit : Int}

/-- Terms that are not negative can be added up when their sum is in
range. -/
theorem addableTo_of_nonneg
    (range : ∀ value, 0 ≤ value → value ≤ limit → fits value = true)
    {terms : List Int} {total : Int} (started : 0 ≤ total)
    (nonneg : ∀ term ∈ terms, 0 ≤ term)
    (small : total + terms.sum ≤ limit) :
    addableTo fits total terms = true := by
  induction terms generalizing total with
  | nil => rfl
  | cons term rest inductionHypothesis =>
      have positive := nonneg term List.mem_cons_self
      have others : ∀ other ∈ rest, 0 ≤ other := fun other listed =>
        nonneg other (List.mem_cons_of_mem term listed)
      have behind := List.sum_nonneg others
      rw [List.sum_cons] at small
      rw [addableTo, range term positive (by omega),
        range (total + term) (by omega) (by omega)]
      exact inductionHypothesis (by omega) others (by omega)

theorem addable_of_nonneg
    (range : ∀ value, 0 ≤ value → value ≤ limit → fits value = true)
    {terms : List Int} (nonneg : ∀ term ∈ terms, 0 ≤ term)
    (small : terms.sum ≤ limit) : addable fits terms = true :=
  addableTo_of_nonneg range (le_refl 0) nonneg (by rwa [zero_add])

/-- A sum that is formed is in range. -/
theorem fits_of_addableTo {terms : List Int} {total : Int}
    (started : fits total = true)
    (added : addableTo fits total terms = true) :
    fits (total + terms.sum) = true := by
  induction terms generalizing total with
  | nil => rwa [List.sum_nil, add_zero]
  | cons term rest inductionHypothesis =>
      rw [addableTo, Bool.and_eq_true, Bool.and_eq_true] at added
      rw [List.sum_cons, ← add_assoc]
      exact inductionHypothesis added.1.2 added.2

/-- Terms that are not negative can be added up in every order or in
none. -/
theorem addable_perm
    (zero : fits 0 = true)
    (closed : ∀ value larger, 0 ≤ value → value ≤ larger →
      fits larger = true → fits value = true)
    {terms others : List Int} (reordered : terms.Perm others)
    (nonneg : ∀ term ∈ terms, 0 ≤ term)
    (added : addable fits terms = true) : addable fits others = true := by
  have whole := fits_of_addableTo zero added
  rw [zero_add, reordered.sum_eq] at whole
  have stillNonneg : ∀ term ∈ others, 0 ≤ term := fun term listed =>
    nonneg term (reordered.mem_iff.mpr listed)
  exact addable_of_nonneg (fun value positive small =>
    closed value others.sum positive small whole) stillNonneg (le_refl _)

end Sums

end CheckedSums
