import Mathlib.Data.String.Basic
import Xoxproxy.Library.Grouping
import Xoxproxy.Store.TrafficQueries

/-!
# The destination reports

The grouped `SELECT` statements of `internal/store/sqlite/analytics.go`
over `destination_stats`.
-/

namespace Xoxproxy

open RowTables

/-- A row of `destination_stats` with the user it belongs to. -/
abbrev UserDestination := UserRow × DestinationRow

/-- `JOIN users u ON u.id = d.user_id`. -/
def Database.userDestinations (database : Database) :
    List UserDestination :=
  database.destinationStats.flatMap fun row =>
    (database.users.filter fun user => user.id = row.userID).map fun user =>
      (user, row)

/-- The columns by which the reports are grouped. -/
def UserDestination.target (row : UserDestination) :
    String × Int × String :=
  (row.2.host, row.2.port, row.2.protocol)

def UserDestination.lastSeen (row : UserDestination) : String :=
  row.2.lastSeen

/-- A row of a report, before its stamp is read. -/
structure DestinationTotal where
  username : String
  host : String
  port : Int
  protocol : String
  requests : Int
  blocked : Int
  bytesIn : Int
  bytesOut : Int
  lastSeen : String
  deriving DecidableEq, Repr

/-- `destinationAgg`.  The username is not grouped: it comes from a row
with the `MAX(d.last_seen)`, the first one visited. -/
def destinationAgg (target : String × Int × String)
    (group : List UserDestination) : DestinationTotal :=
  let latest := latestRow UserDestination.lastSeen group
  { username := (latest.map fun row => row.1.username).getD ""
    host := target.1
    port := target.2.1
    protocol := target.2.2
    requests := (group.map fun row => row.2.requests).sum
    blocked := (group.map fun row => row.2.blocked).sum
    bytesIn := (group.map fun row => row.2.bytesIn).sum
    bytesOut := (group.map fun row => row.2.bytesOut).sum
    lastSeen := (latest.map UserDestination.lastSeen).getD "" }

/-- The rows that a report selects. -/
def Database.selectDestinations (database : Database)
    (selects : DestinationRow → Bool) : List UserDestination :=
  database.userDestinations.filter fun row => selects row.2

/-- `GROUP BY d.host, d.port, d.protocol ORDER BY ... DESC LIMIT ?`. -/
def Database.groupDestinations (database : Database)
    (order : VisitOrder UserDestination) (selects : DestinationRow → Bool)
    (rank : DestinationTotal → Int) (limit : Int) : List DestinationTotal :=
  limitRows limit ((groupBy UserDestination.target destinationAgg
    (order.visit (database.selectDestinations selects))).mergeSort
      fun first second => decide (rank second ≤ rank first))

def DestinationTotal.bytes (total : DestinationTotal) : Int :=
  total.bytesIn + total.bytesOut

/-- Whether no `SUM` over a group overflows. -/
def figuresFit (group : List UserDestination) : Bool :=
  summable (group.map fun row => row.2.requests) &&
    summable (group.map fun row => row.2.blocked) &&
    summable (group.map fun row => row.2.bytesIn) &&
    summable (group.map fun row => row.2.bytesOut)

/-- Whether no `SUM` of a report overflows; all groups are summed up before
the first row is given out. -/
def sumsFit (rows : List UserDestination) : Bool :=
  (groupBy UserDestination.target (fun _ => figuresFit) rows).all id

/-- `d.day >= ?`; days are compared as text. -/
def DestinationRow.since (sinceDay : String) (row : DestinationRow) : Bool :=
  !decide (row.day < sinceDay)

/-- The condition of `ListUserDestinations`. -/
def DestinationRow.ofUserSince (userID : Int) (sinceDay : String)
    (row : DestinationRow) : Bool :=
  row.userID = userID && row.since sinceDay

/-- The condition of `ListBlockedDestinations`. -/
def DestinationRow.blockedSince (sinceDay : String) (row : DestinationRow) :
    Bool :=
  row.since sinceDay && decide (0 < row.blocked)

/-- `DestinationStat`; a report fills in neither the id nor the day. -/
structure DestinationStat where
  userID : Int := 0
  username : String
  day : String := ""
  host : String
  port : Int
  protocol : String
  requests : Int
  blocked : Int
  bytesIn : Int
  bytesOut : Int
  lastSeen : Time
  deriving DecidableEq, Repr

section Reading

variable [Build]

/-- `scanDestinations`, for one row. -/
def scanDestination (total : DestinationTotal) :
    Except GoError DestinationStat :=
  (parseTime total.lastSeen).map fun lastSeen =>
    { username := total.username
      host := total.host
      port := total.port
      protocol := total.protocol
      requests := total.requests
      blocked := total.blocked
      bytesIn := total.bytesIn
      bytesOut := total.bytesOut
      lastSeen := lastSeen }

/-- The query and its scan. -/
def Database.reportDestinations (database : Database)
    (order : VisitOrder UserDestination) (selects : DestinationRow → Bool)
    (rank : DestinationTotal → Int) (limit : Int) :
    Except GoError (List DestinationStat) :=
  if sumsFit (order.visit (database.selectDestinations selects)) then
    readAll scanDestination
      (database.groupDestinations order selects rank limit)
  else .error errIntegerOverflow

variable (database : Database) (order : VisitOrder UserDestination)
variable (sinceDay : String) (limit : Int)

/-- `ListTopDestinations`. -/
def Database.listTopDestinations : Except GoError (List DestinationStat) :=
  database.reportDestinations order (fun row => row.since sinceDay)
    DestinationTotal.bytes limit

/-- `ListBlockedDestinations`. -/
def Database.listBlockedDestinations :
    Except GoError (List DestinationStat) :=
  database.reportDestinations order (fun row => row.blockedSince sinceDay)
    DestinationTotal.blocked limit

end Reading

/-! ## What a report holds -/

section Untruncated

variable {database : Database} {order : VisitOrder UserDestination}
variable {selects : DestinationRow → Bool}
variable {rank : DestinationTotal → Int} {limit : Int}

/-- The number of destinations of a selection. -/
def targetCount (rows : List UserDestination) : Nat :=
  ((rows.map UserDestination.target).dedup).length

/-- The rows of a destination. -/
def ofTarget (rows : List UserDestination) (row : UserDestination) :
    List UserDestination :=
  rowsOf UserDestination.target rows row.target

theorem mem_ofTarget {rows : List UserDestination}
    {row other : UserDestination} :
    other ∈ ofTarget rows row ↔ other ∈ rows ∧ other.target = row.target :=
  mem_rowsOf

/-- The rows of a destination are the same ones in every visit. -/
theorem ofTarget_visit (order : VisitOrder UserDestination)
    (rows : List UserDestination) (row : UserDestination) :
    (ofTarget (order.visit rows) row).Perm (ofTarget rows row) :=
  rowsOf_perm (order.perm rows) row.target

theorem ofTarget_congr (rows : List UserDestination)
    {row other : UserDestination} (same : other.target = row.target) :
    ofTarget rows other = ofTarget rows row :=
  congrArg (rowsOf UserDestination.target rows) same

/-- Without truncation, a report has one row for every destination
selected. -/
theorem mem_groupDestinations
    (untruncated : Untruncated limit
      (targetCount (database.selectDestinations selects)))
    {total : DestinationTotal} :
    total ∈ database.groupDestinations order selects rank limit ↔
      ∃ row ∈ database.selectDestinations selects,
        destinationAgg row.target (ofTarget
          (order.visit (database.selectDestinations selects)) row) =
            total := by
  have visited := order.perm (database.selectDestinations selects)
  have whole : Untruncated limit ((groupBy UserDestination.target
      destinationAgg (order.visit
        (database.selectDestinations selects))).mergeSort
          fun first second => decide (rank second ≤ rank first)).length := by
    rw [List.length_mergeSort, length_groupBy,
      length_groups_perm visited]
    exact untruncated
  rw [Database.groupDestinations, limitRows_untruncated whole,
    (List.mergeSort_perm _ _).mem_iff, mem_groupBy]
  constructor
  · rintro ⟨row, listed, same⟩
    exact ⟨row, visited.mem_iff.mp listed, same⟩
  · rintro ⟨row, listed, same⟩
    exact ⟨row, visited.mem_iff.mpr listed, same⟩

/-- The bare column of a group that is not empty comes from one of its
latest rows. -/
theorem destinationAgg_latest (target : String × Int × String)
    {group : List UserDestination} {row : UserDestination}
    (listed : row ∈ group) :
    ∃ latest, IsLatest UserDestination.lastSeen group latest ∧
      (destinationAgg target group).username = latest.1.username ∧
      (destinationAgg target group).lastSeen = latest.lastSeen := by
  obtain ⟨latest, found⟩ :=
    @latestRow_isSome _ _ _ UserDestination.lastSeen group row listed
  refine ⟨latest, isLatest_of_latestRow found, ?_, ?_⟩
  · simp [destinationAgg, found]
  · simp [destinationAgg, found]

/-- A row with the greatest stamp of its destination. -/
def LatestOfTarget (rows : List UserDestination) (row : UserDestination) :
    Prop :=
  IsLatest UserDestination.lastSeen (ofTarget rows row) row

/-- The latest stamp of every destination can be read. -/
def StampsRead [Build] (rows : List UserDestination) : Prop :=
  ∀ row, LatestOfTarget rows row →
    ∃ time, parseTime row.lastSeen = .ok time

/-- A report is answered in some order of the visit. -/
def Answerable [Build] (rows : List UserDestination) : Prop :=
  StampsRead rows ∧ ∃ order : VisitOrder UserDestination,
    sumsFit (order.visit rows) = true

theorem sumsFit_iff {rows : List UserDestination} :
    sumsFit rows = true ↔
      ∀ row ∈ rows, figuresFit (ofTarget rows row) = true := by
  rw [sumsFit, List.all_eq_true]
  constructor
  · intro fit row listed
    exact fit _ (mem_groupBy.mpr ⟨row, listed, rfl⟩)
  · intro fit sums listed
    obtain ⟨row, member, rfl⟩ := mem_groupBy.mp listed
    exact fit row member

/-- No figure is negative, as in all tables that `ApplyDeltas` has
written. -/
def NoneNegative (rows : List UserDestination) : Prop :=
  ∀ row ∈ rows, 0 ≤ row.2.requests ∧ 0 ≤ row.2.blocked ∧
    0 ≤ row.2.bytesIn ∧ 0 ≤ row.2.bytesOut

theorem figuresFit_perm {rows others : List UserDestination}
    (nonneg : NoneNegative rows) (reordered : rows.Perm others)
    (fit : figuresFit rows = true) : figuresFit others = true := by
  have column : ∀ figure : UserDestination → Int,
      (∀ row ∈ rows, 0 ≤ figure row) →
        summable (rows.map figure) = true →
          summable (others.map figure) = true := by
    intro figure positive added
    refine CheckedSums.addable_perm (by decide) ?_ (reordered.map figure) ?_
      added
    · intro value larger above below inside
      unfold fitsInt64 at inside ⊢
      simp only [Bool.and_eq_true, decide_eq_true_iff] at inside ⊢
      omega
    · intro value listed
      obtain ⟨row, member, rfl⟩ := List.mem_map.mp listed
      exact positive row member
  simp only [figuresFit, Bool.and_eq_true] at fit ⊢
  obtain ⟨⟨⟨requests, blocked⟩, bytesIn⟩, bytesOut⟩ := fit
  exact ⟨⟨⟨column _ (fun row listed => (nonneg row listed).1) requests,
    column _ (fun row listed => (nonneg row listed).2.1) blocked⟩,
    column _ (fun row listed => (nonneg row listed).2.2.1) bytesIn⟩,
    column _ (fun row listed => (nonneg row listed).2.2.2) bytesOut⟩

/-- Without negative figures, sums overflow in every order or in none. -/
theorem sumsFit_visit {rows : List UserDestination}
    (nonneg : NoneNegative rows) (fit : sumsFit rows = true)
    (order : VisitOrder UserDestination) :
    sumsFit (order.visit rows) = true := by
  rw [sumsFit_iff] at fit ⊢
  intro row listed
  have stored := (order.perm rows).mem_iff.mp listed
  refine figuresFit_perm ?_ (ofTarget_visit order rows row).symm
    (fit row stored)
  exact fun other member => nonneg other (mem_ofTarget.mp member).1

theorem reportDestinations_ok_iff [Build] {stats : List DestinationStat} :
    database.reportDestinations order selects rank limit = .ok stats ↔
      sumsFit (order.visit (database.selectDestinations selects)) = true ∧
        readAll scanDestination
          (database.groupDestinations order selects rank limit) =
            .ok stats := by
  unfold Database.reportDestinations
  by_cases fit :
      sumsFit (order.visit (database.selectDestinations selects)) = true
  · rw [if_pos fit]
    exact (and_iff_right fit).symm
  · rw [if_neg fit]
    exact ⟨fun wrong => (by cases wrong), fun wrong => absurd wrong.1 fit⟩

theorem scanDestination_isOk_iff [Build] {total : DestinationTotal} :
    (∃ stat, scanDestination total = .ok stat) ↔
      ∃ time, parseTime total.lastSeen = .ok time := by
  unfold scanDestination
  cases parseTime total.lastSeen with
  | error error => simp [Except.map]
  | ok time => simp [Except.map]

/-- The rows of a report are read exactly if the latest stamp of every
destination is, whatever the order of the visit. -/
theorem groupDestinations_read_iff [Build]
    (untruncated : Untruncated limit
      (targetCount (database.selectDestinations selects))) :
    (∃ stats, readAll scanDestination
        (database.groupDestinations order selects rank limit) = .ok stats) ↔
      StampsRead (database.selectDestinations selects) := by
  have visited := ofTarget_visit order (database.selectDestinations selects)
  rw [readAll_isOk_iff]
  constructor
  · intro reads row isLatest
    obtain ⟨listed, -⟩ := mem_ofTarget.mp isLatest.listed
    have total := reads _
      ((mem_groupDestinations untruncated).mpr ⟨row, listed, rfl⟩)
    obtain ⟨latest, found, -, stamp⟩ := destinationAgg_latest row.target
      ((visited row).mem_iff.mpr isLatest.listed)
    obtain ⟨time, read⟩ := scanDestination_isOk_iff.mp total
    rw [stamp, (found.perm (visited row)).stamp_eq isLatest] at read
    exact ⟨time, read⟩
  · intro reads total member
    obtain ⟨row, listed, rfl⟩ := (mem_groupDestinations untruncated).mp member
    obtain ⟨latest, found, -, stamp⟩ := destinationAgg_latest row.target
      ((visited row).mem_iff.mpr (mem_ofTarget.mpr ⟨listed, rfl⟩))
    have isLatest := found.perm (visited row)
    rw [scanDestination_isOk_iff, stamp]
    apply reads
    rw [LatestOfTarget,
      ofTarget_congr _ (mem_ofTarget.mp isLatest.listed).2]
    exact isLatest

/-- A report that is answered in no order is never answered. -/
theorem Answerable.of_report [Build] {stats : List DestinationStat}
    (untruncated : Untruncated limit
      (targetCount (database.selectDestinations selects)))
    (done :
      database.reportDestinations order selects rank limit = .ok stats) :
    Answerable (database.selectDestinations selects) := by
  obtain ⟨fit, read⟩ := reportDestinations_ok_iff.mp done
  exact ⟨(groupDestinations_read_iff untruncated).mp ⟨stats, read⟩,
    order, fit⟩

theorem Answerable.report [Build]
    (answerable : Answerable (database.selectDestinations selects))
    (rank : DestinationTotal → Int)
    (untruncated : Untruncated limit
      (targetCount (database.selectDestinations selects))) :
    ∃ order stats,
      database.reportDestinations order selects rank limit = .ok stats := by
  obtain ⟨reads, order, fit⟩ := answerable
  have read := (@groupDestinations_read_iff _ order _ rank _ _
    untruncated).mpr reads
  obtain ⟨stats, done⟩ := read
  exact ⟨order, stats, reportDestinations_ok_iff.mpr ⟨fit, done⟩⟩

end Untruncated

end Xoxproxy
