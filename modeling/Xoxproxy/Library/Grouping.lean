import Mathlib.Algebra.BigOperators.Group.List.Basic
import Mathlib.Algebra.Group.Basic
import Mathlib.Data.List.Dedup
import Mathlib.Data.List.MinMax
import Mathlib.Data.List.Perm.Basic
import Mathlib.Tactic.Abel
import Xoxproxy.Library.RowTables

/-!
# Grouped queries

`GROUP BY`, the row with the greatest stamp of a group, and sums over
some of its rows.  The order in which the rows are visited is not fixed.
-/

namespace RowTables

section Groups

variable {Row Key Summary : Type} [DecidableEq Key] {column : Row → Key}
variable {rows others : List Row} {summary : Key → List Row → Summary}

/-- The rows with a value in a column. -/
def rowsOf (column : Row → Key) (rows : List Row) (value : Key) : List Row :=
  rows.filter fun row => column row = value

/-- `SELECT summary ... GROUP BY column`. -/
def groupBy (column : Row → Key) (summary : Key → List Row → Summary)
    (rows : List Row) : List Summary :=
  (rows.map column).dedup.map fun value =>
    summary value (rowsOf column rows value)

theorem mem_rowsOf {value : Key} {row : Row} :
    row ∈ rowsOf column rows value ↔ row ∈ rows ∧ column row = value := by
  simp [rowsOf]

theorem mem_groupBy {item : Summary} :
    item ∈ groupBy column summary rows ↔
      ∃ row ∈ rows,
        summary (column row) (rowsOf column rows (column row)) = item := by
  unfold groupBy
  rw [List.mem_map]
  constructor
  · rintro ⟨value, listed, same⟩
    obtain ⟨row, member, rfl⟩ := List.mem_map.mp (List.mem_dedup.mp listed)
    exact ⟨row, member, same⟩
  · rintro ⟨row, member, same⟩
    exact ⟨column row,
      List.mem_dedup.mpr (List.mem_map_of_mem member), same⟩

theorem length_groupBy :
    (groupBy column summary rows).length =
      ((rows.map column).dedup).length :=
  List.length_map _

theorem rowsOf_perm (reordered : rows.Perm others) (value : Key) :
    (rowsOf column rows value).Perm (rowsOf column others value) :=
  reordered.filter _

/-- The number of groups does not depend on the order of the rows. -/
theorem length_groups_perm (reordered : rows.Perm others) :
    ((rows.map column).dedup).length = ((others.map column).dedup).length :=
  (reordered.map column).dedup.length_eq

/-- `LIMIT`; a negative one keeps every row. -/
def limitRows (limit : Int) (rows : List Row) : List Row :=
  if limit < 0 then rows else rows.take limit.toNat

/-- A limit that cuts nothing off. -/
def Untruncated (limit : Int) (count : Nat) : Prop :=
  limit < 0 ∨ (count : Int) ≤ limit

theorem limitRows_untruncated {limit : Int}
    (untruncated : Untruncated limit rows.length) :
    limitRows limit rows = rows := by
  unfold limitRows
  by_cases negative : limit < 0
  · rw [if_pos negative]
  · rw [if_neg negative]
    have fits := untruncated.resolve_left negative
    exact List.take_of_length_le (by omega)

end Groups

/-- An order in which a query visits rows. -/
structure VisitOrder (Row : Type) where
  visit : List Row → List Row
  perm : ∀ rows, (visit rows).Perm rows

/-- The order of the table. -/
def VisitOrder.stored (Row : Type) : VisitOrder Row where
  visit := id
  perm := List.Perm.refl

/-- Visit some row before all others. -/
def VisitOrder.first {Row : Type} [DecidableEq Row] (row : Row) :
    VisitOrder Row where
  visit := fun rows => if row ∈ rows then row :: rows.erase row else rows
  perm := by
    intro rows
    by_cases listed : row ∈ rows
    · rw [if_pos listed]
      exact (List.perm_cons_erase listed).symm
    · rw [if_neg listed]

theorem VisitOrder.first_visit {Row : Type} [DecidableEq Row] {row : Row}
    {rows : List Row} (listed : row ∈ rows) :
    (VisitOrder.first row).visit rows = row :: rows.erase row :=
  if_pos listed

section Latest

variable {Row Stamp : Type} [LinearOrder Stamp] {stamp : Row → Stamp}
variable {rows others : List Row} {row other : Row}

/-- A row with the greatest stamp. -/
structure IsLatest (stamp : Row → Stamp) (rows : List Row) (row : Row) :
    Prop where
  listed : row ∈ rows
  latest : ∀ other ∈ rows, stamp other ≤ stamp row

/-- The first of the rows with the greatest stamp. -/
def latestRow (stamp : Row → Stamp) (rows : List Row) : Option Row :=
  rows.argmax stamp

theorem isLatest_of_latestRow (found : latestRow stamp rows = some row) :
    IsLatest stamp rows row :=
  ⟨List.argmax_mem found, fun _ listed => List.le_of_mem_argmax listed found⟩

theorem latestRow_isSome (listed : row ∈ rows) :
    ∃ latest, latestRow stamp rows = some latest := by
  cases found : latestRow stamp rows with
  | none =>
      rw [latestRow, List.argmax_eq_none] at found
      rw [found] at listed
      cases listed
  | some latest => exact ⟨latest, rfl⟩

theorem IsLatest.perm (isLatest : IsLatest stamp rows row)
    (reordered : rows.Perm others) : IsLatest stamp others row :=
  ⟨reordered.mem_iff.mp isLatest.listed, fun other listed =>
    isLatest.latest other (reordered.mem_iff.mpr listed)⟩

theorem IsLatest.stamp_eq (first : IsLatest stamp rows row)
    (second : IsLatest stamp rows other) : stamp row = stamp other :=
  le_antisymm (second.latest row first.listed)
    (first.latest other second.listed)

theorem latestRow_first {rest : List Row}
    (isLatest : IsLatest stamp (row :: rest) row) :
    latestRow stamp (row :: rest) = some row := by
  rw [latestRow, List.argmax_cons]
  cases found : List.argmax stamp rest with
  | none => rfl
  | some other =>
      have listed : other ∈ row :: rest :=
        List.mem_cons_of_mem row (List.argmax_mem found)
      exact if_neg (isLatest.latest other listed).not_gt

/-- Any latest row of a group is the one that some visit finds. -/
theorem exists_visit_latest [DecidableEq Row] {Key : Type} [DecidableEq Key]
    {column : Row → Key}
    (isLatest : IsLatest stamp (rowsOf column rows (column row)) row) :
    latestRow stamp (rowsOf column
      ((VisitOrder.first row).visit rows) (column row)) = some row := by
  have listed : row ∈ rows := (mem_rowsOf.mp isLatest.listed).1
  have reordered : (rowsOf column rows (column row)).Perm (rowsOf column
      ((VisitOrder.first row).visit rows) (column row)) :=
    rowsOf_perm ((VisitOrder.first row).perm rows).symm (column row)
  have still := isLatest.perm reordered
  rw [VisitOrder.first_visit listed] at still ⊢
  have leading : rowsOf column (row :: rows.erase row) (column row) =
      row :: rowsOf column (rows.erase row) (column row) :=
    List.filter_cons_of_pos (decide_eq_true rfl)
  rw [leading] at still ⊢
  exact latestRow_first still

end Latest

section Sums

variable {Row Amount : Type} [AddCommMonoid Amount]
variable (amount : Row → Amount) (keep : Row → Bool) (rows : List Row)

theorem sum_filter_add_filter_not :
    ((rows.filter keep).map amount).sum +
        ((rows.filter fun row => !keep row).map amount).sum =
      (rows.map amount).sum := by
  induction rows with
  | nil => simp
  | cons row rows inductionHypothesis =>
      rw [List.map_cons, List.sum_cons, ← inductionHypothesis]
      by_cases kept : keep row = true
      · simp [kept, add_assoc]
      · simp [kept, add_left_comm]

/-- Some rows amount to everything exactly if the others amount to
nothing. -/
theorem sum_eq_sum_filter_iff [IsLeftCancelAdd Amount] :
    (rows.map amount).sum = ((rows.filter keep).map amount).sum ↔
      ((rows.filter fun row => !keep row).map amount).sum = 0 := by
  rw [← sum_filter_add_filter_not amount keep rows]
  exact add_eq_left

end Sums

end RowTables
