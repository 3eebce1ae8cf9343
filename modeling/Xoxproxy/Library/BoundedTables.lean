import Xoxproxy.Library.AssociationMaps

/-!
# Tables that make room

A table of associations that drops its stale entries once it has reached
its bound, and then takes up an entry in any case.
-/

namespace BoundedTables

open AssociationMaps

section Tables

variable {Key Value : Type} [DecidableEq Key]

/-- Drop the stale entries of a table that has reached its bound. -/
def makeRoom (bound : Nat) (stale : Value → Bool)
    (entries : List (Key × Value)) : List (Key × Value) :=
  if entries.length < bound then entries
  else entries.filter fun entry => !stale entry.2

/-- Change or take up an entry. -/
def takeUp (bound : Nat) (stale : Value → Bool) (key : Key)
    (change : Option Value → Value) (entries : List (Key × Value)) :
    List (Key × Value) :=
  adjust key change (makeRoom bound stale entries)

/-- The entry finds room: there is some, the key has an entry already, or
an entry is stale. -/
def HasRoom (bound : Nat) (stale : Value → Bool) (key : Key)
    (entries : List (Key × Value)) : Prop :=
  entries.length < bound ∨ key ∈ keys entries ∨
    ∃ entry ∈ entries, stale entry.2 = true

variable {bound : Nat} {stale : Value → Bool} {key : Key}
variable {change : Option Value → Value} {entries : List (Key × Value)}

theorem length_adjust_le :
    (adjust key change entries).length ≤ entries.length + 1 := by
  rw [length_adjust]
  split <;> omega

omit [DecidableEq Key] in
theorem length_filter_lt {test : Key × Value → Bool} {entry : Key × Value}
    (listed : entry ∈ entries) (dropped : test entry = false) :
    (entries.filter test).length < entries.length := by
  rw [List.length_filter_lt_length_iff_exists]
  exact ⟨entry, listed, by simp [dropped]⟩

omit [DecidableEq Key] in
/-- Nothing is dropped from a table without stale entries. -/
theorem makeRoom_of_fresh
    (fresh : ∀ entry ∈ entries, stale entry.2 = false) :
    makeRoom bound stale entries = entries := by
  unfold makeRoom
  split
  · rfl
  · rw [List.filter_eq_self]
    intro entry member
    simp [fresh entry member]

/-- A table within its bound stays there exactly if the entry finds
room. -/
theorem length_takeUp_le_iff (within : entries.length ≤ bound) :
    (takeUp bound stale key change entries).length ≤ bound ↔
      HasRoom bound stale key entries := by
  by_cases room : entries.length < bound
  · have kept : makeRoom bound stale entries = entries := if_pos room
    have grown := @length_adjust_le _ _ _ key change entries
    rw [takeUp, kept]
    exact ⟨fun _ => Or.inl room, fun _ => by omega⟩
  by_cases gone : ∃ entry ∈ entries, stale entry.2 = true
  · obtain ⟨entry, listed, old⟩ := gone
    have fewer : (makeRoom bound stale entries).length < entries.length := by
      rw [makeRoom, if_neg room]
      exact length_filter_lt listed (by simp [old])
    have grown :=
      @length_adjust_le _ _ _ key change (makeRoom bound stale entries)
    rw [takeUp]
    exact ⟨fun _ => Or.inr (Or.inr ⟨entry, listed, old⟩), fun _ => by omega⟩
  · have fresh : ∀ entry ∈ entries, stale entry.2 = false := by
      intro entry member
      exact Bool.eq_false_iff.mpr fun old => gone ⟨entry, member, old⟩
    rw [takeUp, makeRoom_of_fresh fresh, length_adjust]
    by_cases known : key ∈ keys entries
    · have found : find? key entries ≠ none := fun absent =>
        find?_eq_none_iff.mp absent known
      rw [if_neg found]
      exact ⟨fun _ => Or.inr (Or.inl known), fun _ => by omega⟩
    · rw [if_pos (find?_eq_none_iff.mpr known)]
      constructor
      · intro small
        omega
      · rintro (space | same | old)
        · exact absurd space room
        · exact absurd same known
        · exact absurd old gone

/-- A table full of fresh entries is overfilled by a new key. -/
theorem keys_takeUp_fresh
    (fresh : ∀ entry ∈ entries, stale entry.2 = false)
    (new : key ∉ keys entries) :
    keys (takeUp bound stale key change entries) = keys entries ++ [key] := by
  rw [takeUp, makeRoom_of_fresh fresh, keys_adjust, if_neg new]

end Tables

end BoundedTables
