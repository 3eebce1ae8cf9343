import Mathlib.Data.List.Basic
import Mathlib.Data.List.Nodup

/-!
# Maps as lists of associations

Every key occurs once; a key that is new goes to the end.
-/

namespace AssociationMaps

section Maps

variable {Key Value : Type} [DecidableEq Key]

/-- The value of a key. -/
def find? (key : Key) : List (Key × Value) → Option Value
  | [] => none
  | (other, value) :: rest =>
      if other = key then some value else find? key rest

/-- Give a key a new value, made of the one it had. -/
def adjust (key : Key) (change : Option Value → Value) :
    List (Key × Value) → List (Key × Value)
  | [] => [(key, change none)]
  | (other, value) :: rest =>
      if other = key then (other, change (some value)) :: rest
      else (other, value) :: adjust key change rest

def keys (entries : List (Key × Value)) : List Key :=
  entries.map Prod.fst

omit [DecidableEq Key] in
theorem keys_filter_nodup
    {entries : List (Key × Value)} (unique : (keys entries).Nodup)
    (test : Key × Value → Bool) : (keys (entries.filter test)).Nodup :=
  unique.sublist (List.filter_sublist.map Prod.fst)

variable {key : Key} {change : Option Value → Value}
variable {entries : List (Key × Value)}

theorem find?_eq_none_iff : find? key entries = none ↔ key ∉ keys entries := by
  induction entries with
  | nil => simp [find?, keys]
  | cons entry rest inductionHypothesis =>
      obtain ⟨other, value⟩ := entry
      by_cases same : other = key
      · simp [find?, keys, same]
      · have different : key ≠ other := fun equal => same equal.symm
        simpa [find?, keys, same, different] using inductionHypothesis

theorem find?_mem {value : Value} (found : find? key entries = some value) :
    (key, value) ∈ entries := by
  induction entries with
  | nil => cases found
  | cons entry rest inductionHypothesis =>
      obtain ⟨other, first⟩ := entry
      by_cases same : other = key
      · rw [find?, if_pos same] at found
        rw [← Option.some.inj found, same]
        exact List.mem_cons_self
      · rw [find?, if_neg same] at found
        exact List.mem_cons_of_mem _ (inductionHypothesis found)

theorem find?_of_mem {value : Value}
    (unique : (keys entries).Nodup) (member : (key, value) ∈ entries) :
    find? key entries = some value := by
  induction entries with
  | nil => cases member
  | cons entry rest inductionHypothesis =>
      obtain ⟨other, first⟩ := entry
      obtain ⟨fresh, restUnique⟩ := List.nodup_cons.mp unique
      rcases List.mem_cons.mp member with head | later
      · obtain ⟨rfl, rfl⟩ := Prod.mk.inj head
        exact if_pos rfl
      · have different : other ≠ key := by
          rintro rfl
          exact fresh (List.mem_map.mpr ⟨_, later, rfl⟩)
        rw [find?, if_neg different]
        exact inductionHypothesis restUnique later

theorem find?_append (others : List (Key × Value)) :
    find? key (entries ++ others) =
      (find? key entries).or (find? key others) := by
  induction entries with
  | nil => rfl
  | cons entry rest inductionHypothesis =>
      obtain ⟨other, value⟩ := entry
      by_cases same : other = key
      · simp [find?, same]
      · simp [find?, same, inductionHypothesis]

/-- Only the given key changes its value. -/
theorem find?_adjust (other : Key) :
    find? other (adjust key change entries) =
      if other = key then some (change (find? key entries))
      else find? other entries := by
  induction entries with
  | nil =>
      by_cases same : other = key
      · simp [adjust, find?, same]
      · have different : key ≠ other := fun equal => same equal.symm
        simp [adjust, find?, same, different]
  | cons entry rest inductionHypothesis =>
      obtain ⟨first, value⟩ := entry
      by_cases here : first = key
      · subst here
        by_cases same : other = first
        · simp [adjust, find?, same]
        · have different : first ≠ other := fun equal => same equal.symm
          simp [adjust, find?, same, different]
      · by_cases same : first = other
        · subst same
          simp [adjust, find?, here]
        · simp [adjust, find?, here, same, inductionHypothesis]

theorem keys_adjust :
    keys (adjust key change entries) =
      if key ∈ keys entries then keys entries
      else keys entries ++ [key] := by
  induction entries with
  | nil => rfl
  | cons entry rest inductionHypothesis =>
      obtain ⟨other, value⟩ := entry
      by_cases same : other = key
      · simp [adjust, keys, same]
      · have different : key ≠ other := fun equal => same equal.symm
        have listedLater :
            key ∈ keys ((other, value) :: rest) ↔ key ∈ keys rest := by
          simp [keys, different]
        rw [adjust, if_neg same, keys, List.map_cons]
        change other :: keys (adjust key change rest) = _
        rw [inductionHypothesis]
        by_cases listed : key ∈ keys rest
        · rw [if_pos listed, if_pos (listedLater.mpr listed)]
          rfl
        · rw [if_neg listed, if_neg (mt listedLater.mp listed)]
          rfl

theorem mem_keys_adjust {other : Key} :
    other ∈ keys (adjust key change entries) ↔
      other = key ∨ other ∈ keys entries := by
  rw [keys_adjust]
  by_cases listed : key ∈ keys entries
  · rw [if_pos listed]
    constructor
    · exact Or.inr
    · rintro (rfl | member)
      · exact listed
      · exact member
  · rw [if_neg listed, List.mem_append, List.mem_singleton, or_comm]

theorem keys_adjust_nodup (unique : (keys entries).Nodup) :
    (keys (adjust key change entries)).Nodup := by
  rw [keys_adjust]
  by_cases listed : key ∈ keys entries
  · rwa [if_pos listed]
  · rw [if_neg listed]
    exact unique.append (List.nodup_singleton key)
      (by simpa [List.disjoint_singleton] using listed)

/-- What holds of the entries that stay and of the new one holds of all. -/
theorem forall_adjust {property : Key → Value → Prop}
    (all : ∀ entry ∈ entries, property entry.1 entry.2)
    (new : property key (change (find? key entries))) :
    ∀ entry ∈ adjust key change entries, property entry.1 entry.2 := by
  induction entries with
  | nil =>
      intro entry member
      obtain rfl := List.mem_singleton.mp member
      exact new
  | cons first rest inductionHypothesis =>
      obtain ⟨other, value⟩ := first
      have restAll : ∀ entry ∈ rest, property entry.1 entry.2 :=
        fun entry member => all entry (List.mem_cons_of_mem _ member)
      by_cases same : other = key
      · subst same
        rw [find?, if_pos rfl] at new
        rw [adjust, if_pos rfl]
        intro entry member
        rcases List.mem_cons.mp member with rfl | later
        · exact new
        · exact restAll entry later
      · rw [find?, if_neg same] at new
        rw [adjust, if_neg same]
        intro entry member
        rcases List.mem_cons.mp member with rfl | later
        · exact all (other, value) List.mem_cons_self
        · exact inductionHypothesis restAll new entry later

/-- An entry after a change is the changed one, or an old one under
another key. -/
theorem mem_adjust (unique : (keys entries).Nodup) {entry : Key × Value} :
    entry ∈ adjust key change entries ↔
      entry = (key, change (find? key entries)) ∨
        entry.1 ≠ key ∧ entry ∈ entries := by
  have changedUnique : (keys (adjust key change entries)).Nodup :=
    keys_adjust_nodup unique
  obtain ⟨other, value⟩ := entry
  have listed : (other, value) ∈ adjust key change entries ↔
      find? other (adjust key change entries) = some value :=
    ⟨find?_of_mem changedUnique, find?_mem⟩
  have before : (other, value) ∈ entries ↔ find? other entries = some value :=
    ⟨find?_of_mem unique, find?_mem⟩
  rw [listed, before, find?_adjust]
  by_cases same : other = key
  · subst same
    simp [eq_comm]
  · simp [same]

theorem length_adjust :
    (adjust key change entries).length =
      entries.length + if find? key entries = none then 1 else 0 := by
  induction entries with
  | nil => rfl
  | cons entry rest inductionHypothesis =>
      obtain ⟨other, value⟩ := entry
      by_cases same : other = key
      · simp [adjust, find?, same]
      · simp only [adjust, find?, if_neg same, List.length_cons,
          inductionHypothesis]
        omega

/-- Without a key. -/
theorem find?_filter_ne (other : Key) :
    find? key (entries.filter fun entry => decide (entry.1 ≠ other)) =
      if key = other then none else find? key entries := by
  induction entries with
  | nil => simp [find?]
  | cons entry rest inductionHypothesis =>
      obtain ⟨first, value⟩ := entry
      by_cases dropped : first = other
      · subst dropped
        rw [List.filter_cons_of_neg (by simp), inductionHypothesis]
        by_cases same : key = first
        · rw [if_pos same, if_pos same]
        · rw [if_neg same, if_neg same, find?,
            if_neg fun equal => same equal.symm]
      · rw [List.filter_cons_of_pos (by simpa using dropped), find?, find?,
          inductionHypothesis]
        by_cases here : first = key
        · have kept : key ≠ other := here ▸ dropped
          rw [if_pos here, if_pos here, if_neg kept]
        · rw [if_neg here, if_neg here]

/-- Without the values that fail a test. -/
theorem find?_filter_value (unique : (keys entries).Nodup)
    (test : Value → Bool) :
    find? key (entries.filter fun entry => test entry.2) =
      (find? key entries).filter test := by
  induction entries with
  | nil => rfl
  | cons entry rest inductionHypothesis =>
      obtain ⟨first, value⟩ := entry
      obtain ⟨fresh, restUnique⟩ := List.nodup_cons.mp unique
      have split : ((first, value) :: rest).filter
            (fun entry => test entry.2) =
          (if test value = true then [(first, value)] else []) ++
            rest.filter fun entry => test entry.2 := by
        by_cases kept : test value = true
        · simp [kept]
        · simp [kept]
      rw [split, find?_append, inductionHypothesis restUnique]
      by_cases here : first = key
      · subst here
        rw [find?_eq_none_iff.mpr fresh, find?, if_pos rfl]
        by_cases kept : test value = true
        · simp [kept, find?, Option.filter]
        · simp [kept, find?, Option.filter]
      · rw [find?, if_neg here]
        by_cases kept : test value = true
        · simp [kept, find?, here]
        · simp [kept, find?]

variable {Item : Type} {counted : Item → Bool}
variable {content : Key → Value → List Item}

/-- Changing one value changes the count by what the value gains. -/
theorem countP_adjust {gain : Nat}
    (grows :
      (content key (change (find? key entries))).countP counted =
        ((find? key entries).elim [] (content key)).countP counted +
          gain) :
    ((adjust key change entries).flatMap
        fun entry => content entry.1 entry.2).countP counted =
      (entries.flatMap fun entry => content entry.1 entry.2).countP
        counted + gain := by
  induction entries with
  | nil => simpa [adjust, find?] using grows
  | cons entry rest inductionHypothesis =>
      obtain ⟨other, value⟩ := entry
      by_cases same : other = key
      · subst same
        rw [find?, if_pos rfl, Option.elim_some] at grows
        rw [adjust, if_pos rfl, List.flatMap_cons, List.flatMap_cons,
          List.countP_append, List.countP_append, grows,
          Nat.add_right_comm]
      · rw [find?, if_neg same] at grows
        rw [adjust, if_neg same, List.flatMap_cons, List.flatMap_cons,
          List.countP_append, List.countP_append,
          inductionHypothesis grows]
        omega

/-- What only the value of one key contains is counted there. -/
theorem countP_flatMap (unique : (keys entries).Nodup)
    (others : ∀ other value, other ≠ key →
      (content other value).countP counted = 0) :
    (entries.flatMap fun entry => content entry.1 entry.2).countP
        counted =
      ((find? key entries).elim [] (content key)).countP counted := by
  induction entries with
  | nil => rfl
  | cons entry rest inductionHypothesis =>
      obtain ⟨other, value⟩ := entry
      obtain ⟨fresh, restUnique⟩ := List.nodup_cons.mp unique
      rw [List.flatMap_cons, List.countP_append,
        inductionHypothesis restUnique]
      by_cases same : other = key
      · subst same
        rw [find?_eq_none_iff.mpr fresh, find?, if_pos rfl]
        simp
      · rw [others other value same, find?, if_neg same, Nat.zero_add]

end Maps

end AssociationMaps
