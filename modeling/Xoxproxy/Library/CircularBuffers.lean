import Mathlib.Data.Int.ModEq
import Mathlib.Data.List.Basic
import Mathlib.Tactic.Ring

/-!
# Circular buffers

Slots that are written in turn, from the first again after the last.  The
items are listed with the latest one first; an item's age is its place in
that list, its number the count of the items before it.
-/

namespace CircularBuffers

/-- The slot that the item with a number was written to. -/
def slotOf (capacity : Nat) (number : Int) : Nat :=
  (number % capacity).toNat

theorem slotOf_natCast (capacity number : Nat) :
    slotOf capacity number = number % capacity := by
  unfold slotOf
  omega

/-- Two items share a slot only if they are a full turn apart. -/
theorem slotOf_ne {capacity : Nat} {earlier later : Int}
    (before : earlier < later) (near : later - earlier < capacity) :
    slotOf capacity earlier ≠ slotOf capacity later := by
  intro same
  have above : ∀ number : Int, 0 ≤ number % capacity := fun number =>
    Int.emod_nonneg number (by omega)
  have congruent : later % capacity = earlier % capacity := by
    have first := above earlier
    have second := above later
    unfold slotOf at same
    omega
  have turns : (capacity : Int) ∣ later - earlier :=
    Int.dvd_of_emod_eq_zero
      (Int.emod_eq_emod_iff_emod_sub_eq_zero.mp congruent)
  have least := Int.le_of_dvd (by omega) turns
  omega

/-- A walk backwards from the slot that is written next. -/
theorem slotOf_back {capacity : Nat} (number age : Nat)
    (young : age < capacity) :
    ((number % capacity : Nat) - 1 - age + capacity : Int).tmod capacity =
      slotOf capacity (number - 1 - age) := by
  have start : (0 : Int) ≤ (number % capacity : Nat) - 1 - age + capacity := by
    omega
  have turn : ((number % capacity : Nat) - 1 - age + capacity : Int) % capacity =
      (number - 1 - age : Int) % capacity := by
    rw [Int.add_emod_right, Int.natCast_emod]
    exact ((Int.mod_modEq number capacity).sub_right 1).sub_right age
  have above : (0 : Int) ≤ (number - 1 - age : Int) % capacity :=
    Int.emod_nonneg _ (by omega)
  rw [Int.tmod_eq_emod_of_nonneg start, turn, slotOf, Int.toNat_of_nonneg above]

section Buffers

variable {Item : Type} {item : Item} {items : List Item}
  {slots : List (Option Item)}

/-- The slots hold the latest items, as many as there are slots. -/
def Retains (items : List Item) (slots : List (Option Item)) : Prop :=
  ∀ age, age < slots.length → ∀ kept, items[age]? = some kept →
    slots[slotOf slots.length (items.length - 1 - age)]? = some (some kept)

theorem retains_nil (slots : List (Option Item)) : Retains [] slots := by
  intro age _ kept found
  simp at found

/-- Writing the next slot keeps the latest items. -/
theorem Retains.write (retains : Retains items slots) (item : Item) :
    Retains (item :: items)
      (slots.set (items.length % slots.length) (some item)) := by
  intro age young kept found
  rw [List.length_set] at young
  rw [List.length_set, List.length_cons]
  cases age with
  | zero =>
      obtain rfl : item = kept := by simpa using found
      have last : ((items.length + 1 : Nat) - 1 - (0 : Nat) : Int) = items.length := by
        omega
      rw [last, slotOf_natCast, List.getElem?_set_self]
      exact Nat.mod_lt _ (by omega)
  | succ age =>
      rw [List.getElem?_cons_succ] at found
      have place : ((items.length + 1 : Nat) - 1 - (age + 1 : Nat) : Int) =
          items.length - 1 - age := by
        omega
      have apart : slotOf slots.length (items.length - 1 - age) ≠
          items.length % slots.length := by
        rw [← slotOf_natCast]
        exact slotOf_ne (by omega) (by omega)
      rw [place, List.getElem?_set_ne apart.symm]
      exact retains age (by omega) kept found

end Buffers

end CircularBuffers
