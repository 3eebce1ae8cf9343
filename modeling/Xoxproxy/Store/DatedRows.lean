import Xoxproxy.Store.DestinationQueries

/-!
# Tables whose dates can be read

Timestamps and days that are written from the years 0 to 9999 are read back
as they were written.  Every query succeeds on tables that hold no others
and whose figures can be added up, and the statements of a flush keep the
dates so.
-/

namespace Xoxproxy

open RowTables Transactions

def IsStamp (text : String) : Prop :=
  ∃ time, FourDigitYear time ∧ text = formatTime time

def IsDay (text : String) : Prop :=
  ∃ time, FourDigitYear time ∧ text = formatDay time

structure DatedUser (row : UserRow) : Prop where
  expires : ∀ text ∈ row.expiresAt, IsStamp text
  seen : ∀ text ∈ row.lastSeenAt, IsStamp text
  created : IsStamp row.createdAt
  updated : IsStamp row.updatedAt

/-- The days of a user's ledger; its months are never parsed. -/
def DatedUsage (row : UsageRow) : Prop :=
  row.granularity = "day" → IsDay row.periodStart

structure DatedDestination (row : DestinationRow) : Prop where
  day : IsDay row.day
  seen : IsStamp row.lastSeen

structure Dated (database : Database) : Prop where
  users : ∀ row ∈ database.users, DatedUser row
  usage : ∀ row ∈ database.usagePeriods, DatedUsage row
  destinations : ∀ row ∈ database.destinationStats, DatedDestination row

theorem dated_empty : Dated {} where
  users := fun _ listed => (by cases listed)
  usage := fun _ listed => (by cases listed)
  destinations := fun _ listed => (by cases listed)

/-- No figure is negative, and all of them together are in range. -/
structure SumInRange {Row : Type} (figure : Row → Int) (rows : List Row) :
    Prop where
  nonneg : ∀ row ∈ rows, 0 ≤ figure row
  small : (rows.map figure).sum ≤ 2 ^ 63 - 1

section Sums

variable {Row Other : Type} {figure : Row → Int} {rows some : List Row}

theorem SumInRange.part (inRange : SumInRange figure rows)
    (part : some.Subperm rows) : SumInRange figure some where
  nonneg := fun row listed => inRange.nonneg row (part.subset listed)
  small :=
    (CheckedSums.sum_le_of_subperm part inRange.nonneg).trans inRange.small

theorem SumInRange.summable (inRange : SumInRange figure rows) :
    Xoxproxy.summable (rows.map figure) = true :=
  summable_of_nonneg (List.forall_mem_map.mpr inRange.nonneg) inRange.small

theorem SumInRange.sum_fits (inRange : SumInRange figure rows) :
    fitsInt64 (rows.map figure).sum = true :=
  fitsInt64_of_le
    (List.sum_nonneg (List.forall_mem_map.mpr inRange.nonneg))
    inRange.small

theorem SumInRange.fits (inRange : SumInRange figure rows) {row : Row}
    (listed : row ∈ rows) : fitsInt64 (figure row) = true := by
  have single := inRange.part (List.singleton_subperm_iff.mpr listed)
  have sum := single.sum_fits
  rwa [List.map_singleton, List.sum_singleton] at sum

/-- The same of rows that have been joined with others. -/
theorem SumInRange.of_joined {joined : List Other} {row : Other → Row}
    (inRange : SumInRange figure (joined.map row)) :
    SumInRange (fun other => figure (row other)) joined where
  nonneg := fun other listed =>
    inRange.nonneg (row other) (List.mem_map_of_mem listed)
  small := by
    have small := inRange.small
    rwa [List.map_map] at small

end Sums

def trafficFigures : List (UsageRow → Int) :=
  [UsageRow.bytesIn, UsageRow.bytesOut, UsageRow.connections]

def destinationFigures : List (DestinationRow → Int) :=
  [DestinationRow.requests, DestinationRow.blocked, DestinationRow.bytesIn,
    DestinationRow.bytesOut]

/-- The figures of all days, and of all destinations, are in range. -/
structure SumsInRange (database : Database) : Prop where
  users : Unique UserRow.id database.users
  days : ∀ figure ∈ trafficFigures, SumInRange figure
    (database.usagePeriods.filter fun row => row.granularity = "day")
  destinations : ∀ figure ∈ destinationFigures,
    SumInRange figure database.destinationStats

/-- A row is joined with one user at most. -/
theorem joined_sublist {users : List UserRow}
    (unique : Unique UserRow.id users) (rows : List DestinationRow) :
    ((rows.flatMap fun row =>
        (users.filter fun user => user.id = row.userID).map fun user =>
          (user, row)).map Prod.snd).Sublist rows := by
  induction rows with
  | nil => exact .slnil
  | cons row rest inductionHypothesis =>
      have few : (users.filter fun user => user.id = row.userID).length ≤
          1 := by
        have once := List.nodup_iff_count_le_one.mp unique row.userID
        rw [List.count, List.countP_map, List.countP_eq_length_filter] at once
        exact once
      rw [List.flatMap_cons, List.map_append, List.map_map]
      cases owners : users.filter fun user => user.id = row.userID with
      | nil => exact inductionHypothesis.cons row
      | cons owner others =>
          rw [owners, List.length_cons] at few
          obtain rfl : others = [] :=
            List.eq_nil_of_length_eq_zero (by omega)
          exact inductionHypothesis.cons_cons row

/-- The reports of destinations can be added up in every order. -/
theorem SumsInRange.sumsFit {database : Database}
    (inRange : SumsInRange database) (order : VisitOrder UserDestination)
    (selects : DestinationRow → Bool) :
    Xoxproxy.sumsFit (order.visit (database.selectDestinations selects)) =
      true := by
  rw [sumsFit_iff]
  intro row listed
  have part : ((ofTarget (order.visit
      (database.selectDestinations selects)) row).map Prod.snd).Subperm
        database.destinationStats := by
    have group := (List.filter_sublist :
      (ofTarget (order.visit (database.selectDestinations selects))
        row).Sublist _).map Prod.snd
    have visited := (order.perm
      (database.selectDestinations selects)).map Prod.snd
    have selected := (List.filter_sublist :
      (database.selectDestinations selects).Sublist
        database.userDestinations).map Prod.snd
    exact group.subperm.trans (visited.subperm.trans (selected.trans
      (joined_sublist inRange.users database.destinationStats)).subperm)
  have column : ∀ figure ∈ destinationFigures,
      summable ((ofTarget (order.visit (database.selectDestinations selects))
        row).map fun other => figure other.2) = true := fun figure known =>
    ((inRange.destinations figure known).part part).of_joined.summable
  simp only [figuresFit, Bool.and_eq_true]
  exact ⟨⟨⟨column _ (by simp [destinationFigures]),
    column _ (by simp [destinationFigures])⟩,
    column _ (by simp [destinationFigures])⟩,
    column _ (by simp [destinationFigures])⟩

/-! ## Reading -/

section Reading

variable [Build] {database : Database}

theorem parseTime_of_isStamp {text : String} (stamp : IsStamp text) :
    ∃ time, text = formatTime time ∧ parseTime text = .ok time := by
  obtain ⟨time, year, rfl⟩ := stamp
  refine ⟨time, rfl, ?_⟩
  rw [parseTime, readTime_formatTime year.1 year.2]

theorem parseNullTime_of_isStamp {column : Option String}
    (stamp : ∀ text ∈ column, IsStamp text) :
    ∃ time, column = formatNullTime time ∧
      parseNullTime column = .ok time := by
  cases column with
  | none => exact ⟨none, rfl, rfl⟩
  | some text =>
      obtain ⟨time, written, read⟩ := parseTime_of_isStamp (stamp text rfl)
      have nonempty : text ≠ "" := by
        rintro rfl
        rw [parseTime] at read
        cases read
      refine ⟨some time, congrArg some written, ?_⟩
      rw [parseNullTime, if_neg nonempty, read]
      rfl

/-- A dated user is read back with the instants that were written. -/
theorem scanUser_of_dated {row : UserRow} (dated : DatedUser row) :
    ∃ user, scanUser row = .ok user ∧
      row.expiresAt = formatNullTime user.expiresAt ∧
      row.lastSeenAt = formatNullTime user.lastSeenAt ∧
      row.createdAt = formatTime user.createdAt ∧
      row.updatedAt = formatTime user.updatedAt := by
  obtain ⟨expires, expiresWritten, expiresRead⟩ :=
    parseNullTime_of_isStamp dated.expires
  obtain ⟨seen, seenWritten, seenRead⟩ := parseNullTime_of_isStamp dated.seen
  obtain ⟨created, createdWritten, createdRead⟩ :=
    parseTime_of_isStamp dated.created
  obtain ⟨updated, updatedWritten, updatedRead⟩ :=
    parseTime_of_isStamp dated.updated
  unfold scanUser
  rw [expiresRead, seenRead, createdRead, updatedRead]
  exact ⟨_, rfl, expiresWritten, seenWritten, createdWritten, updatedWritten⟩

/-- Every query of users is answered. -/
structure Answers (database : Database) : Prop where
  byID : ∀ id, database.getUserByID id = .error errNotFound ∨
    ∃ user, database.getUserByID id = .ok user
  byUsername : ∀ name,
    database.getUserByUsername name = .error errNotFound ∨
      ∃ user, database.getUserByUsername name = .ok user
  users : ∀ filter, ∃ users, database.listUsers filter = .ok users
  engine : ∀ now, ∃ users, database.listEngineUsers now = .ok users

theorem Dated.scanFound {row : Option UserRow}
    (dated : ∀ found ∈ row, DatedUser found) :
    Xoxproxy.scanFound row = .error errNotFound ∨
      ∃ user, Xoxproxy.scanFound row = .ok user := by
  cases row with
  | none => exact .inl rfl
  | some found =>
      obtain ⟨user, read, -⟩ := scanUser_of_dated (dated found rfl)
      exact .inr ⟨user, read⟩

omit [Build] in
theorem mem_userPage {filter : UserFilter} {row : UserRow}
    (listed : row ∈ database.userPage filter) : row ∈ database.users := by
  have sorted := List.mem_of_mem_drop (List.mem_of_mem_take listed)
  exact (List.mem_filter.mp ((List.mergeSort_perm _ _).mem_iff.mp sorted)).1

theorem Dated.answers (dated : Dated database) : Answers database where
  byID := fun id => Dated.scanFound fun row found =>
    dated.users row (lookup_mem found).1
  byUsername := fun name => Dated.scanFound fun row found =>
    dated.users row (lookup_mem found).1
  users := fun filter => readAll_isOk_iff.mpr fun row listed =>
    (scanUser_of_dated (dated.users row (mem_userPage listed))).imp
      fun _ read => read.1
  engine := by
    intro now
    refine readAll_isOk_iff.mpr fun row listed => ?_
    obtain ⟨user, read, -⟩ :=
      scanUser_of_dated (dated.users _ (mem_engineRows.mp listed).1)
    unfold scanEngineUser
    rw [read]
    exact ⟨_, rfl⟩

omit [Build] in
/-- Days that are selected are some of all days. -/
theorem SumsInRange.selected (inRange : SumsInRange database)
    {rows : List UsageRow} (fewer : rows.Sublist database.usagePeriods)
    (days : ∀ row ∈ rows, row.granularity = "day")
    {figure : UsageRow → Int} (known : figure ∈ trafficFigures) :
    SumInRange figure rows := by
  have all : rows.filter (fun row => row.granularity = "day") = rows :=
    List.filter_eq_self.mpr fun row listed => decide_eq_true (days row listed)
  refine (inRange.days figure known).part (List.Sublist.subperm ?_)
  rw [← all]
  exact fewer.filter _

/-- A query fails for want of a row or over a figure only, never over a
date. -/
def ParsesDates {Value : Type} (result : Except GoError Value) : Prop :=
  ∀ error, result = .error error →
    error ∈ [errNotFound, errIntegerOverflow, errScan]

omit [Build] in
theorem ParsesDates.ok {Value : Type} {result : Except GoError Value}
    (done : ∃ value, result = .ok value) : ParsesDates result := by
  intro error failed
  obtain ⟨value, done⟩ := done
  rw [done] at failed
  cases failed

omit [Build] in
theorem ParsesDates.found {Value : Type} {result : Except GoError Value}
    (done : result = .error errNotFound ∨ ∃ value, result = .ok value) :
    ParsesDates result := by
  rcases done with missing | done
  · intro error failed
    rw [missing] at failed
    cases failed
    exact List.mem_cons_self
  · exact .ok done

end Reading

/-! ## Writing -/

section Writing

variable {database after : Database}

/-- A delta whose day and stamp can be written. -/
structure DatedDelta (delta : UsageDelta) : Prop where
  day : IsDay delta.day
  seen : FourDigitYear (unixMilli delta.lastSeenUnix)

structure DatedDest (delta : DestinationDelta) : Prop where
  day : IsDay delta.day
  seen : FourDigitYear delta.lastSeen

theorem forall_upsert {Row Key : Type} [DecidableEq Key]
    {key : Row → Key} {merge : Row → Row → Row} {new : Row}
    {rows : List Row} {property : Row → Prop}
    (all : ∀ row ∈ rows, property row) (added : property new)
    (merged : ∀ row, property row → property (merge row new)) :
    ∀ row ∈ upsert key merge new rows, property row := by
  unfold upsert
  cases lookup key rows (key new) with
  | none =>
      exact List.forall_mem_append.mpr
        ⟨all, List.forall_mem_singleton.mpr added⟩
  | some _ =>
      intro row listed
      obtain ⟨old, member, rfl⟩ := mem_updateWhere.mp listed
      by_cases matched : key old = key new
      · rw [if_pos (decide_eq_true matched)]
        exact merged old (all old member)
      · rw [if_neg (by simpa using matched)]
        exact all old member

theorem Dated.update {condition : UserRow → Bool}
    {change : UserRow → UserRow} (dated : Dated database)
    (changed : ∀ row, DatedUser row → DatedUser (change row)) :
    Dated { database with
      users := updateWhere condition change database.users } where
  users := by
    intro row listed
    obtain ⟨old, member, rfl⟩ := mem_updateWhere.mp listed
    by_cases matched : condition old = true
    · rw [if_pos matched]
      exact changed old (dated.users old member)
    · rw [if_neg matched]
      exact dated.users old member
  usage := dated.usage
  destinations := dated.destinations

theorem DatedUser.touch {row : UserRow} {now : Time}
    (dated : DatedUser row) (year : FourDigitYear now) :
    DatedUser (row.touch now) :=
  ⟨dated.expires, dated.seen, dated.created, ⟨now, year, rfl⟩⟩

theorem isStamp_formatNullTime {time : Option Time}
    (years : ∀ instant ∈ time, FourDigitYear instant) :
    ∀ text ∈ formatNullTime time, IsStamp text := by
  intro text written
  cases time with
  | none => cases written
  | some instant =>
      obtain rfl := Option.some.inj written
      exact ⟨instant, years instant rfl, rfl⟩

theorem DatedUser.writeUser {row : UserRow} {user : ProxyUser}
    (dated : DatedUser row)
    (years : ∀ instant ∈ user.expiresAt, FourDigitYear instant) :
    DatedUser (row.writeUser user) :=
  ⟨isStamp_formatNullTime years, dated.seen, dated.created, dated.updated⟩

theorem Dated.deleteUser (dated : Dated database) (id : Int) :
    Dated (database.deleteUser id).2 where
  users := fun row kept => dated.users row (mem_deleteWhere.mp kept).1
  usage := fun row kept => dated.usage row (mem_deleteWhere.mp kept).1
  destinations := fun row kept =>
    dated.destinations row (mem_deleteWhere.mp kept).1

theorem Dated.referring {userID : Int} {changed : Database}
    (dated : Dated changed)
    (done : database.referring userID changed = .ok after) : Dated after := by
  unfold Database.referring at done
  cases found : database.userRow userID with
  | none =>
      rw [found] at done
      cases done
  | some row =>
      rw [found] at done
      rw [← Except.ok.inj done]
      exact dated

theorem Dated.addUsage {delta : UsageDelta} {period granularity : String}
    (dated : Dated database) (day : granularity = "day" → IsDay period)
    (done : (Xoxproxy.addUsage delta period granularity).run database =
      .ok after) : Dated after := by
  refine @Dated.referring database after delta.userID _ ?_ done
  refine ⟨dated.users, ?_, dated.destinations⟩
  exact forall_upsert dated.usage day fun _ kept => kept

theorem Dated.addDestination {delta : DestinationDelta}
    (dated : Dated database) (dest : DatedDest delta)
    (done : (Xoxproxy.addDestination delta).run database = .ok after) :
    Dated after := by
  have stamp : IsStamp (formatTime delta.lastSeen) := ⟨_, dest.seen, rfl⟩
  refine @Dated.referring database after delta.userID _ ?_ done
  refine ⟨dated.users, dated.usage, ?_⟩
  exact forall_upsert dated.destinations ⟨dest.day, stamp⟩
    fun row kept => ⟨kept.day, stamp⟩

theorem Dated.stampLastSeen {delta : UsageDelta}
    (dated : Dated database) (counted : DatedDelta delta)
    (done : (Xoxproxy.stampLastSeen delta).run database = .ok after) :
    Dated after := by
  rw [← Except.ok.inj done]
  refine dated.update fun row kept =>
    ⟨kept.expires, fun text written => ?_, kept.created, kept.updated⟩
  obtain rfl := Option.some.inj written
  exact ⟨_, counted.seen, rfl⟩

/-- Every statement of `ApplyDeltas` keeps the dates readable. -/
theorem Dated.statement
    {usage : List UsageDelta} {dests : List DestinationDelta}
    {cursor : LogCursor} {statement : Statement Database GoError}
    (counted : ∀ delta ∈ usage, DatedDelta delta)
    (seen : ∀ delta ∈ dests, DatedDest delta)
    (member : statement ∈ applyDeltasStatements usage dests cursor)
    (done : statement.run database = .ok after)
    (dated : Dated database) : Dated after := by
  unfold applyDeltasStatements at member
  rcases List.mem_append.mp member with traffic | last
  · rcases List.mem_append.mp traffic with ledger | destination
    · obtain ⟨delta, listed, inDelta⟩ := List.mem_flatMap.mp ledger
      have here := counted delta listed
      rcases List.mem_append.mp inDelta with upserts | stamp
      · rcases List.mem_pair.mp upserts with rfl | rfl
        · exact dated.addUsage (fun _ => here.day) done
        · exact dated.addUsage (fun wrong => absurd wrong (by decide)) done
      · by_cases positive : 0 < delta.lastSeenUnix
        · rw [if_pos positive, List.mem_singleton] at stamp
          subst stamp
          exact dated.stampLastSeen here done
        · rw [if_neg positive] at stamp
          cases stamp
    · obtain ⟨delta, listed, rfl⟩ := List.mem_map.mp destination
      exact dated.addDestination (seen delta listed) done
  · rw [List.mem_singleton.mp last] at done
    rw [← Except.ok.inj done]
    exact ⟨dated.users, dated.usage, dated.destinations⟩

theorem Dated.applyDeltas
    {usage : List UsageDelta} {dests : List DestinationDelta}
    {cursor : LogCursor} (dated : Dated database)
    (counted : ∀ delta ∈ usage, DatedDelta delta)
    (seen : ∀ delta ∈ dests, DatedDest delta)
    (done : executeAll (applyDeltasStatements usage dests cursor) database =
      .ok after) : Dated after := by
  let keeps := fun before now : Database => Dated before → Dated now
  have kept : keeps database after :=
    @executeAll_preserves _ _ _ _ _ keeps (fun _ => id)
      (fun early late here => late (early here))
      (fun _ member _ _ ran => Dated.statement counted seen member ran) done
  exact kept dated

end Writing

end Xoxproxy
