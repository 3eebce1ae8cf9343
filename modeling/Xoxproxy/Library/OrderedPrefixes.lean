import Mathlib.Data.List.MinMax

/-!
# Prefixes of an ascending list

A ledger of keys that is kept for a list of items tells by its largest key
alone how far the list was worked through.
-/

namespace OrderedPrefixes

variable {Item Key : Type} [LinearOrder Key]
variable {key : Item → Key} {floor : Key} {items : List Item}

/-- The largest key of a ledger, the floor of an empty one. -/
def latest (floor : Key) (ledger : List Key) : Key :=
  ledger.max?.getD floor

theorem le_latest {ledger : List Key} {entry : Key}
    (member : entry ∈ ledger) : entry ≤ latest floor ledger := by
  cases largest : ledger.max? with
  | none =>
      rw [List.max?_eq_none_iff.mp largest] at member
      cases member
  | some bound =>
      rw [latest, largest, Option.getD_some]
      exact (List.max?_eq_some_iff.mp largest).2 entry member

theorem latest_lt {ledger : List Key} {bound : Key} (above : floor < bound)
    (below : ∀ entry ∈ ledger, entry < bound) :
    latest floor ledger < bound := by
  cases largest : ledger.max? with
  | none => rwa [latest, largest, Option.getD_none]
  | some entry =>
      rw [latest, largest, Option.getD_some]
      exact below entry (List.max?_eq_some_iff.mp largest).1

/-- The keys ascend from above the floor. -/
structure Ascending (key : Item → Key) (floor : Key) (items : List Item) :
    Prop where
  ordered : items.Pairwise fun first second => key first < key second
  above : ∀ item ∈ items, floor < key item

/-- The largest key of a prefix lies below the items behind it. -/
theorem Ascending.latest_take_lt (ascending : Ascending key floor items)
    (count : Nat) {item : Item} (member : item ∈ items.drop count) :
    latest floor ((items.take count).map key) < key item := by
  have parts := List.take_append_drop count items
  have ordered := ascending.ordered
  rw [← parts, List.pairwise_append] at ordered
  obtain ⟨_, _, across⟩ := ordered
  apply latest_lt (ascending.above item (List.mem_of_mem_drop member))
  intro entry listed
  obtain ⟨earlier, taken, rfl⟩ := List.mem_map.mp listed
  exact across earlier taken item member

end OrderedPrefixes
