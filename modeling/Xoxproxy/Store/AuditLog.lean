import Mathlib.Data.List.Nodup
import Xoxproxy.Library.RowTables
import Xoxproxy.Store.Timestamps

/-!
# The audit trail

The rows of `audit_logs` and the statements of
`internal/store/sqlite/audit.go`.  Entries are only ever added.
-/

namespace Xoxproxy

open RowTables

structure AuditRow where
  id : Int
  ts : String
  actor : String
  action : String
  target : String
  requestID : String
  sourceIP : String
  userAgent : String
  result : String
  detail : String
  deriving DecidableEq, Repr

/-- `store.AuditEntry`, as it is read. -/
structure ListedEntry extends AuditEntry where
  id : Int
  timestamp : Time
  deriving DecidableEq, Repr

/-- `store.AuditFilter`; zero values select everything. -/
structure AuditFilter where
  action : String := ""
  beforeID : Int := 0
  limit : Int := 0
  offset : Int := 0
  deriving DecidableEq, Repr

/-- An instant that reads back from its timestamp. -/
structure Stamp where
  time : Time
  readable : ∃ read, readTime (formatTime time).toList = some read

/-- Those of the years 0 to 9999 do. -/
def Stamp.ofYear (time : Time) (lower : 0 ≤ (dateOfTime time).year)
    (upper : (dateOfTime time).year < 10000) : Stamp where
  time := time
  readable := ⟨time, readTime_formatTime lower upper⟩

/-- The table with its `AUTOINCREMENT` sequence. -/
structure AuditTable where
  rows : List AuditRow
  sequence : Int
  ascending : rows.Pairwise fun first second => first.id < second.id
  numbered : ∀ row ∈ rows, 1 ≤ row.id ∧ row.id ≤ sequence
  bounded : 0 ≤ sequence ∧ sequence < 2 ^ 63
  stamped : ∀ row ∈ rows, ∃ time, readTime row.ts.toList = some time

namespace AuditTable

def empty : AuditTable where
  rows := []
  sequence := 0
  ascending := .nil
  numbered := by simp
  bounded := by decide
  stamped := by simp

/-- The row of an entry. -/
def newRow (entry : AuditEntry) (stamp : Stamp) (id : Int) : AuditRow where
  id := id
  ts := formatTime stamp.time
  actor := entry.actor
  action := entry.action
  target := entry.target
  requestID := entry.requestID
  sourceIP := entry.sourceIP
  userAgent := entry.userAgent
  result := entry.result
  detail := entry.detail

variable (table : AuditTable)

/-- The statement of `Record`; SQLite refuses it when the last number is
taken. -/
def record (entry : AuditEntry) (stamp : Stamp) : AuditTable :=
  if free : table.sequence + 1 < 2 ^ 63 then
    { rows := table.rows ++ [newRow entry stamp (table.sequence + 1)]
      sequence := table.sequence + 1
      ascending := by
        refine List.pairwise_append.mpr
          ⟨table.ascending, List.pairwise_singleton _ _, ?_⟩
        intro row member other fresh
        rw [List.mem_singleton.mp fresh]
        have numbered := table.numbered row member
        exact Int.lt_add_one_of_le numbered.2
      numbered := by
        intro row member
        rcases List.mem_append.mp member with old | fresh
        · have numbered := table.numbered row old
          exact ⟨numbered.1, numbered.2.trans (Int.le_add_one (le_refl _))⟩
        · have bounded := table.bounded.1
          rw [List.mem_singleton.mp fresh]
          exact ⟨Int.le_add_of_nonneg_left bounded, le_refl _⟩
      bounded := ⟨by have bounded := table.bounded.1; omega, free⟩
      stamped := by
        intro row member
        rcases List.mem_append.mp member with old | fresh
        · exact table.stamped row old
        · rw [List.mem_singleton.mp fresh]
          exact stamp.readable }
  else table

/-- The rows of `List`. -/
def select (filter : AuditFilter) : List AuditRow :=
  let limit :=
    if filter.limit ≤ 0 ∨ 500 < filter.limit then 100 else filter.limit
  let selected := table.rows.filter fun row =>
    (filter.action == "" || row.action == filter.action) &&
      (!decide (0 < filter.beforeID) || decide (row.id < filter.beforeID))
  ((selected.mergeSort fun first second => decide (second.id ≤ first.id)).drop
    filter.offset.toNat).take limit.toNat

section Reading

variable [Build]

def scanAudit (row : AuditRow) : Except GoError ListedEntry :=
  match parseTime row.ts with
  | .error error => .error error
  | .ok timestamp => .ok {
      id := row.id
      timestamp := timestamp
      actor := row.actor
      action := row.action
      target := row.target
      requestID := row.requestID
      sourceIP := row.sourceIP
      userAgent := row.userAgent
      result := row.result
      detail := row.detail }

/-- `AuditRepository.List`. -/
def list (filter : AuditFilter) : Except GoError (List ListedEntry) :=
  readAll scanAudit (table.select filter)

end Reading

variable {table}

/-- The rows of an action, all when it is empty. -/
def ofAction (table : AuditTable) (action : String) : List AuditRow :=
  table.rows.filter fun row => action == "" || row.action == action

/-- They are listed with the latest first. -/
def latestOfAction (table : AuditTable) (action : String) : List AuditRow :=
  (table.ofAction action).reverse

theorem latestOfAction_descending (table : AuditTable) (action : String) :
    (table.latestOfAction action).Pairwise
      fun first second => second.id < first.id :=
  List.pairwise_reverse.mpr (table.ascending.filter _)

/-- Sorting rows that ascend by their numbers turns them around. -/
theorem mergeSort_ascending {rows : List AuditRow}
    (ascending : rows.Pairwise fun first second => first.id < second.id) :
    (rows.mergeSort fun first second => decide (second.id ≤ first.id)) =
      rows.reverse := by
  have sorted : (rows.mergeSort fun first second =>
      decide (second.id ≤ first.id)).Pairwise
        fun first second => second.id ≤ first.id := by
    have pairs := @List.pairwise_mergeSort AuditRow
      (fun first second => decide (second.id ≤ first.id))
      (fun first second third lower upper => by
        have below := of_decide_eq_true lower
        have above := of_decide_eq_true upper
        exact decide_eq_true (above.trans below))
      (fun first second => by
        rcases le_total second.id first.id with below | above
        · simp [below]
        · simp [above]) rows
    exact pairs.imp fun pair => of_decide_eq_true pair
  have turned : rows.reverse.Pairwise
      fun first second => second.id ≤ first.id :=
    (List.pairwise_reverse.mpr ascending).imp fun pair => le_of_lt pair
  have distinct : (rows.map AuditRow.id).Nodup :=
    List.pairwise_map.mpr (ascending.imp fun pair => ne_of_lt pair)
  refine List.Perm.eq_of_pairwise ?_ sorted turned
    ((List.mergeSort_perm _ _).trans (List.reverse_perm _).symm)
  intro first second listed also below above
  exact List.inj_on_of_nodup_map distinct
    ((List.mergeSort_perm _ _).mem_iff.mp listed)
    (List.mem_reverse.mp also) (le_antisymm above below)

/-- A page of at most 500 rows. -/
theorem select_eq (table : AuditTable) {filter : AuditFilter}
    (limit : 1 ≤ filter.limit ∧ filter.limit ≤ 500)
    (noOffset : filter.offset = 0) :
    table.select filter =
      ((table.latestOfAction filter.action).filter fun row =>
        !decide (0 < filter.beforeID) || decide (row.id < filter.beforeID)).take
        filter.limit.toNat := by
  have kept : ¬ (filter.limit ≤ 0 ∨ 500 < filter.limit) := by omega
  rw [select, if_neg kept, noOffset, Int.toNat_zero, List.drop_zero,
    mergeSort_ascending (table.ascending.filter _), latestOfAction, ofAction,
    List.filter_reverse, List.filter_filter]
  simp only [Bool.and_comm]

end AuditTable

end Xoxproxy
