import Xoxproxy.Library.CheckedSums
import Xoxproxy.Store.Days
import Xoxproxy.Store.Queries

/-!
# What is read from and removed from the traffic tables

The statements of `internal/store/sqlite/analytics.go` besides
`ApplyDeltas`.
-/

namespace Xoxproxy

open RowTables Transactions

/-- The rows that `ResetUsage` removes; periods are compared as text. -/
def resetsRow (id : Int) (granularity start : String) (row : UsageRow) :
    Bool :=
  row.userID = id && row.granularity = granularity &&
    !decide (row.periodStart < start)

def deleteUsage (id : Int) (granularity start : String) :
    Statement Database GoError where
  run := fun database =>
    .ok { database with
      usagePeriods :=
        deleteWhere (resetsRow id granularity start)
          database.usagePeriods }

/-- The transaction of `ResetUsage`. -/
def resetUsageStatements (id : Int) (day month : String) :
    List (Statement Database GoError) :=
  [deleteUsage id "day" day, deleteUsage id "month" month]

/-- The statement of `PruneDestinations`. -/
def Database.pruneDestinations (database : Database) (before : String) :
    Nat × Database :=
  (database.destinationStats.countP fun row =>
      decide (row.day < before),
    { database with
      destinationStats :=
        deleteWhere (fun row => decide (row.day < before))
          database.destinationStats })

/-- What an integer column holds.  Beyond it `+` makes a `REAL`, which is
not scanned into an `int64`. -/
def fitsInt64 (value : Int) : Bool :=
  decide (-2 ^ 63 ≤ value) && decide (value < 2 ^ 63)

theorem fitsInt64_of_le {value : Int} (nonneg : 0 ≤ value)
    (small : value ≤ 2 ^ 63 - 1) : fitsInt64 value = true := by
  unfold fitsInt64
  simp only [Bool.and_eq_true, decide_eq_true_iff]
  omega

/-- Whether `SUM` gives an integer. -/
def summable (column : List Int) : Bool :=
  CheckedSums.addable fitsInt64 column

theorem summable_of_nonneg {column : List Int}
    (nonneg : ∀ value ∈ column, 0 ≤ value)
    (small : column.sum ≤ 2 ^ 63 - 1) : summable column = true :=
  CheckedSums.addable_of_nonneg (fun _ => fitsInt64_of_le) nonneg small

/-- A `SUM` that overflows gives the whole query up. -/
def errIntegerOverflow : GoError := .plain "integer overflow"

/-- `Scan` of a count; the `sql` package's own error text is left out. -/
def errScan : GoError := .plain "sql: Scan error"

/-- A row of one user, or the sum of the rows of a day. -/
structure PeriodRow where
  periodStart : String
  granularity : String
  bytesIn : Int
  bytesOut : Int
  connections : Int
  deriving DecidableEq, Repr

/-- The days that `ListUserTraffic` selects. -/
def Database.userDayRows
    (database : Database) (userID : Int) (since : Time) :
    List UsageRow :=
  database.usagePeriods.filter fun row =>
    row.userID = userID && row.granularity = "day" &&
      !decide (row.periodStart < formatDay since)

/-- The rows of `ListUserTraffic`. -/
def Database.userTrafficRows
    (database : Database) (userID : Int) (since : Time) :
    List PeriodRow :=
  ((database.userDayRows userID since).mergeSort
    fun first second => decide (first.periodStart ≤ second.periodStart)).map
  fun row =>
    ⟨row.periodStart, row.granularity, row.bytesIn, row.bytesOut,
      row.connections⟩

section Reading

variable [Build]

end Reading

end Xoxproxy
