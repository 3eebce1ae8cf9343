import Mathlib.Data.List.Nodup

/-!
# Tables of rows

Relational tables as lists of rows, the statements that change them, and
what becomes of a row that is looked up by a unique column.
-/

namespace RowTables

variable {Row Key : Type}

/-- `UPDATE ... SET change WHERE condition`. -/
def updateWhere
    (condition : Row → Bool) (change : Row → Row) (rows : List Row) :
    List Row :=
  rows.map fun row => if condition row then change row else row

/-- `DELETE ... WHERE condition`. -/
def deleteWhere (condition : Row → Bool) (rows : List Row) : List Row :=
  rows.filter fun row => !condition row

/-- The column holds every value at most once. -/
def Unique (column : Row → Key) (rows : List Row) : Prop :=
  (rows.map column).Nodup

section Lookup

variable [DecidableEq Key] (column : Row → Key)

/-- `SELECT ... WHERE column = value`, the first row. -/
def lookup (rows : List Row) (value : Key) : Option Row :=
  rows.find? fun row => column row = value

end Lookup

variable {column : Row → Key} {rows : List Row}
variable {condition : Row → Bool} {change : Row → Row}

theorem mem_updateWhere {row : Row} :
    row ∈ updateWhere condition change rows ↔
      ∃ old ∈ rows, (if condition old then change old else old) = row :=
  List.mem_map

theorem mem_deleteWhere {row : Row} :
    row ∈ deleteWhere condition rows ↔
      row ∈ rows ∧ condition row = false := by
  simp [deleteWhere]

/-- An update that matches nothing changes nothing. -/
theorem updateWhere_of_countP_eq_zero
    (none : rows.countP condition = 0) :
    updateWhere condition change rows = rows := by
  rw [List.countP_eq_zero] at none
  unfold updateWhere
  conv_rhs => rw [← List.map_id rows]
  apply List.map_congr_left
  intro row member
  simp [none row member]

/-- What no statement does to single rows it does not do to tables. -/
theorem forall_updateWhere
    {property : Row → Prop}
    (kept : ∀ row ∈ rows, property row → property (change row))
    (holds : ∀ row ∈ rows, property row) :
    ∀ row ∈ updateWhere condition change rows, property row := by
  intro row member
  obtain ⟨old, listed, same⟩ := mem_updateWhere.mp member
  subst same
  by_cases matched : condition old = true
  · rw [if_pos matched]
    exact kept old listed (holds old listed)
  · rw [if_neg matched]
    exact holds old listed

/-- Two conditions update the same rows exactly if they agree on all
rows, as long as an update leaves its mark. -/
theorem updateWhere_eq_iff
    {other : Row → Bool} (marks : ∀ row ∈ rows, change row ≠ row) :
    updateWhere condition change rows = updateWhere other change rows ↔
      ∀ row ∈ rows, condition row = other row := by
  unfold updateWhere
  rw [List.map_inj_left]
  constructor
  · intro same row member
    have equal := same row member
    have marked := marks row member
    cases first : condition row <;> cases second : other row
    · rfl
    · rw [first, second] at equal
      exact absurd equal.symm marked
    · rw [first, second] at equal
      exact absurd equal marked
    · rfl
  · intro agree row member
    rw [agree row member]

theorem deleteWhere_eq_iff {other : Row → Bool} :
    deleteWhere condition rows = deleteWhere other rows ↔
      ∀ row ∈ rows, condition row = other row := by
  constructor
  · intro same row member
    have kept : row ∈ deleteWhere condition rows ↔
        row ∈ deleteWhere other rows := by
      rw [same]
    rw [mem_deleteWhere, mem_deleteWhere] at kept
    cases first : condition row <;> cases second : other row <;>
      simp_all
  · intro agree
    unfold deleteWhere
    apply List.filter_congr
    intro row member
    rw [agree row member]

/-- A deletion whose condition does not tell rows from their projections. -/
theorem map_deleteWhere {project : Row → Row}
    (blind : ∀ row, condition (project row) = condition row) :
    (deleteWhere condition rows).map project =
      deleteWhere condition (rows.map project) := by
  unfold deleteWhere
  rw [List.filter_map]
  congr 1
  apply List.filter_congr
  intro row _
  rw [Function.comp_apply, blind]

/-- An update that does the same to rows and to their projections. -/
theorem map_updateWhere {project : Row → Row}
    (blind : ∀ row, condition (project row) = condition row)
    (commutes : ∀ row, project (change row) = change (project row)) :
    (updateWhere condition change rows).map project =
      updateWhere condition change (rows.map project) := by
  unfold updateWhere
  rw [List.map_map, List.map_map]
  apply List.map_congr_left
  intro row _
  simp only [Function.comp_apply, blind]
  by_cases matched : condition row = true
  · rw [if_pos matched, if_pos matched, commutes]
  · rw [if_neg matched, if_neg matched]

theorem unique_updateWhere
    (kept : ∀ row, column (change row) = column row)
    (unique : Unique column rows) :
    Unique column (updateWhere condition change rows) := by
  have same : (updateWhere condition change rows).map column =
      rows.map column := by
    rw [updateWhere, List.map_map]
    apply List.map_congr_left
    intro row _
    by_cases matched : condition row = true <;> simp [matched, kept]
  unfold Unique
  rw [same]
  exact unique

theorem unique_deleteWhere (unique : Unique column rows) :
    Unique column (deleteWhere condition rows) :=
  List.Nodup.sublist (List.filter_sublist.map column) unique

/-- A row with a new value may be appended. -/
theorem unique_append
    {new : Row} (unique : Unique column rows)
    (fresh : ∀ row ∈ rows, column row ≠ column new) :
    Unique column (rows ++ [new]) := by
  unfold Unique
  rw [List.map_append, List.nodup_append]
  refine ⟨unique, by simp, ?_⟩
  intro value listed other appended
  obtain ⟨row, member, same⟩ := List.mem_map.mp listed
  rw [List.map_singleton, List.mem_singleton] at appended
  rw [appended, ← same]
  exact fresh row member

/-- Two rows with the same unique value are one. -/
theorem Unique.eq
    (unique : Unique column rows) {first second : Row}
    (listed : first ∈ rows) (alsoListed : second ∈ rows)
    (same : column first = column second) : first = second :=
  List.inj_on_of_nodup_map unique listed alsoListed same

section Lookup

variable [DecidableEq Key] {value : Key}

theorem lookup_mem
    {row : Row} (found : lookup column rows value = some row) :
    row ∈ rows ∧ column row = value := by
  have member := List.mem_of_find?_eq_some found
  have matched := List.find?_some found
  exact ⟨member, by simpa using matched⟩

theorem lookup_eq_some_iff
    (unique : Unique column rows) {row : Row} :
    lookup column rows value = some row ↔
      row ∈ rows ∧ column row = value := by
  constructor
  · exact lookup_mem
  · rintro ⟨member, matched⟩
    cases found : lookup column rows value with
    | none =>
        have absent := List.find?_eq_none.mp found row member
        simp [matched] at absent
    | some other =>
        obtain ⟨listed, same⟩ := lookup_mem found
        rw [unique.eq listed member (same.trans matched.symm)]

theorem lookup_eq_none_iff :
    lookup column rows value = none ↔
      ∀ row ∈ rows, column row ≠ value := by
  simp [lookup]

/-- Looking up after an update finds the updated row. -/
theorem lookup_updateWhere
    (kept : ∀ row, column (change row) = column row) :
    lookup column (updateWhere condition change rows) value =
      (lookup column rows value).map fun row =>
        if condition row then change row else row := by
  unfold lookup updateWhere
  rw [List.find?_map]
  congr 2
  funext row
  by_cases matched : condition row = true <;> simp [matched, kept]

/-- Looking up after a deletion finds the row unless it was deleted. -/
theorem lookup_deleteWhere (unique : Unique column rows) :
    lookup column (deleteWhere condition rows) value =
      (lookup column rows value).filter fun row => !condition row := by
  cases found : lookup column rows value with
  | none =>
      have absent := lookup_eq_none_iff.mp found
      apply lookup_eq_none_iff.mpr
      intro row member
      exact absent row (mem_deleteWhere.mp member).1
  | some row =>
      obtain ⟨member, matched⟩ := lookup_mem found
      by_cases deleted : condition row = true
      · rw [Option.filter_some_neg (by simp [deleted])]
        apply lookup_eq_none_iff.mpr
        intro other remains same
        obtain ⟨listed, spared⟩ := mem_deleteWhere.mp remains
        have equal := unique.eq listed member (same.trans matched.symm)
        rw [equal, deleted] at spared
        cases spared
      · rw [Option.filter_some_pos (by simp [deleted])]
        apply (lookup_eq_some_iff (unique_deleteWhere unique)).mpr
        exact ⟨mem_deleteWhere.mpr ⟨member, by simpa using deleted⟩,
          matched⟩

/-- Looking up after an insertion finds the old row or the new one. -/
theorem lookup_append {new : Row} :
    lookup column (rows ++ [new]) value =
      (lookup column rows value).or
        (if column new = value then some new else none) := by
  unfold lookup
  rw [List.find?_append]
  congr 1
  by_cases matched : column new = value <;> simp [matched]

/-- The number of rows that an update by a unique column matches. -/
theorem countP_lookup
    (unique : Unique column rows)
    (keyed : ∀ row, condition row = true → column row = value) :
    0 < rows.countP condition ↔
      ∃ row, lookup column rows value = some row ∧
        condition row = true := by
  rw [List.countP_pos_iff]
  constructor
  · rintro ⟨row, member, matched⟩
    exact ⟨row, (lookup_eq_some_iff unique).mpr
      ⟨member, keyed row matched⟩, matched⟩
  · rintro ⟨row, found, matched⟩
    exact ⟨row, (lookup_mem found).1, matched⟩

end Lookup

section Reading

variable {Value Error : Type}

/-- Read every row, up to the first one that cannot be read. -/
def readAll (read : Row → Except Error Value) :
    List Row → Except Error (List Value)
  | [] => .ok []
  | row :: rest =>
      match read row with
      | .error error => .error error
      | .ok value =>
          match readAll read rest with
          | .error error => .error error
          | .ok values => .ok (value :: values)

variable {read : Row → Except Error Value}

/-- The values that were read belong to the rows, one by one. -/
theorem readAll_ok
    {values : List Value} (done : readAll read rows = .ok values) :
    List.Forall₂ (fun row value => read row = .ok value) rows values := by
  induction rows generalizing values with
  | nil =>
      rw [← Except.ok.inj done]
      exact .nil
  | cons row rest induction =>
      unfold readAll at done
      cases first : read row with
      | error error =>
          rw [first] at done
          cases done
      | ok value =>
          rw [first] at done
          cases others : readAll read rest with
          | error error =>
              rw [others] at done
              cases done
          | ok later =>
              rw [others] at done
              rw [← Except.ok.inj done]
              exact .cons first (induction others)

/-- Every value was read from some row. -/
theorem mem_of_readAll
    {values : List Value} (done : readAll read rows = .ok values)
    {value : Value} (member : value ∈ values) :
    ∃ row ∈ rows, read row = .ok value := by
  have matched := readAll_ok done
  clear done
  induction matched with
  | nil => cases member
  | @cons row first _ _ same _ induction =>
      rcases List.mem_cons.mp member with rfl | later
      · exact ⟨row, List.mem_cons_self, same⟩
      · obtain ⟨other, listed, found⟩ := induction later
        exact ⟨other, List.mem_cons_of_mem _ listed, found⟩

/-- Every row has been read. -/
theorem mem_readAll
    {values : List Value} (done : readAll read rows = .ok values)
    {row : Row} (member : row ∈ rows) :
    ∃ value ∈ values, read row = .ok value := by
  have matched := readAll_ok done
  clear done
  induction matched with
  | nil => cases member
  | @cons first value _ _ same _ induction =>
      rcases List.mem_cons.mp member with rfl | later
      · exact ⟨value, List.mem_cons_self, same⟩
      · obtain ⟨other, listed, found⟩ := induction later
        exact ⟨other, List.mem_cons_of_mem _ listed, found⟩

/-- Everything is read exactly if every single row can be read. -/
theorem readAll_isOk_iff :
    (∃ values, readAll read rows = .ok values) ↔
      ∀ row ∈ rows, ∃ value, read row = .ok value := by
  induction rows with
  | nil => simp [readAll]
  | cons row rest induction =>
      rw [List.forall_mem_cons, ← induction]
      rw [readAll.eq_2]
      cases read row with
      | error error => simp
      | ok value =>
          cases readAll read rest with
          | error error => simp
          | ok values => simp

end Reading

end RowTables
