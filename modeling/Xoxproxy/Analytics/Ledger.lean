import Xoxproxy.Analytics.Bookings
import Xoxproxy.Store.Consistency

/-!
# The ledger in the database

What the rows of `usage_periods` and `destination_stats` amount to, and
how the statements on them change it.
-/

namespace Xoxproxy.Analytics

open RowTables Transactions Tallies

section Upserts

variable {Row Key : Type} [DecidableEq Key] {key : Row → Key}
variable {merge : Row → Row → Row} {rows : List Row} {new : Row}

/-- An upsert changes what is found under its key, and nothing else. -/
theorem lookup_upsert
    (kept : ∀ row, key (merge row new) = key row) (value : Key) :
    lookup key (upsert key merge new rows) value =
      if key new = value then
        some (((lookup key rows value).map fun row => merge row new).getD
          new)
      else lookup key rows value := by
  rw [upsert]
  cases found : lookup key rows (key new) with
  | none =>
      rw [lookup_append]
      by_cases same : key new = value
      · rw [if_pos same, if_pos same, ← same, found]
        rfl
      · rw [if_neg same, if_neg same, Option.or_none]
  | some row =>
      rw [lookup_updateWhere kept]
      by_cases same : key new = value
      · have matched := (lookup_mem found).2
        rw [if_pos same, ← same, found]
        simp [matched]
      · rw [if_neg same]
        cases other : lookup key rows value with
        | none => rfl
        | some old =>
            have different : ¬key old = key new := by
              rw [(lookup_mem other).2]
              exact fun equal => same equal.symm
            simp [different]

/-- An upsert adds the amount of the new row under its key. -/
theorem amount_upsert
    {Amount : Type} [AddCommMonoid Amount] (amount : Row → Amount)
    (kept : ∀ row, key (merge row new) = key row)
    (adds : ∀ row, amount (merge row new) = amount row + amount new)
    (value : Key) :
    ((lookup key (upsert key merge new rows) value).map amount).getD 0 =
      ((lookup key rows value).map amount).getD 0 +
        if key new = value then amount new else 0 := by
  rw [lookup_upsert kept]
  by_cases same : key new = value
  · rw [if_pos same, if_pos same]
    cases lookup key rows value with
    | none => simp
    | some row => simp [adds]
  · rw [if_neg same, if_neg same, add_zero]

theorem unique_upsert
    (kept : ∀ row, key (merge row new) = key row)
    (unique : Unique key rows) :
    Unique key (upsert key merge new rows) := by
  rw [upsert]
  cases found : lookup key rows (key new) with
  | none =>
      apply unique_append unique
      exact lookup_eq_none_iff.mp found
  | some row => exact unique_updateWhere kept unique

/-- A row after an upsert has the key of an old row or of the new one. -/
theorem mem_upsert
    (kept : ∀ row, key (merge row new) = key row) :
    ∀ row ∈ upsert key merge new rows,
      key row = key new ∨ ∃ old ∈ rows, key old = key row := by
  intro row member
  rw [upsert] at member
  cases found : lookup key rows (key new) with
  | none =>
      rw [found] at member
      rcases List.mem_append.mp member with old | added
      · exact Or.inr ⟨row, old, rfl⟩
      · rw [List.mem_singleton.mp added]
        exact Or.inl rfl
  | some _ =>
      rw [found] at member
      obtain ⟨old, listed, same⟩ := mem_updateWhere.mp member
      refine Or.inr ⟨old, listed, ?_⟩
      rw [← same]
      by_cases matched : key old = key new
      · simp [matched, kept]
      · simp [matched]

end Upserts

/-- The rows of the two traffic tables. -/
inductive RowKey where
  | usage (userID : Int) (period granularity : String)
  | destination (userID : Int) (day : String) (slot : DestKey)
  deriving DecidableEq, Repr

def RowKey.userID : RowKey → Int
  | .usage userID _ _ => userID
  | .destination userID _ _ => userID

def usageRowCounters (row : UsageRow) : Counters where
  requests := row.connections
  bytesIn := row.bytesIn
  bytesOut := row.bytesOut

def destinationRowCounters (row : DestinationRow) : Counters where
  requests := row.requests
  blocked := row.blocked
  bytesIn := row.bytesIn
  bytesOut := row.bytesOut

/-- What a row amounts to; a row that is absent amounts to nothing. -/
def amountAt (database : Database) : RowKey → Counters
  | .usage userID period granularity =>
      ((lookup UsageRow.key database.usagePeriods
        (userID, period, granularity)).map usageRowCounters).getD 0
  | .destination userID day slot =>
      ((lookup DestinationRow.key database.destinationStats
        (userID, day, slot.host, slot.port, slot.protocol)).map
          destinationRowCounters).getD 0

def usageRowKey (row : UsageRow) : RowKey :=
  .usage row.userID row.periodStart row.granularity

def destinationRowKey (row : DestinationRow) : RowKey :=
  .destination row.userID row.day ⟨row.host, row.port, row.protocol⟩

/-- The rows that are there. -/
def rowKeys (database : Database) : List RowKey :=
  database.usagePeriods.map usageRowKey ++
    database.destinationStats.map destinationRowKey

/-- The names under which accounts are known. -/
def accounts (database : Database) : List (Int × String) :=
  database.users.map fun row => (row.id, row.username)

/-- The traffic tables have unique keys and belong to users. -/
structure TrafficConsistent (database : Database) : Prop where
  usageKeys : Unique UsageRow.key database.usagePeriods
  destinationKeys : Unique DestinationRow.key database.destinationStats
  usageOwners : ∀ row ∈ database.usagePeriods,
    row.userID ∈ database.users.map UserRow.id
  destinationOwners : ∀ row ∈ database.destinationStats,
    row.userID ∈ database.users.map UserRow.id

theorem trafficConsistent_empty : TrafficConsistent {} where
  usageKeys := List.nodup_nil
  destinationKeys := List.nodup_nil
  usageOwners := by simp
  destinationOwners := by simp

/-- A change that adds amounts and leaves the accounts alone. -/
structure Books
    (before after : Database) (booked : List (RowKey × Counters)) :
    Prop where
  amounts : ∀ key,
    amountAt after key = amountAt before key + tally booked key
  consistent : TrafficConsistent before → TrafficConsistent after
  rows : ∀ key ∈ rowKeys after,
    key ∈ rowKeys before ∨ key ∈ booked.map Prod.fst
  accounts : accounts after = accounts before
  sequence : after.userSequence = before.userSequence
  owned : ∀ booking ∈ booked,
    booking.1.userID ∈ before.users.map UserRow.id

theorem ids_of_accounts {before after : Database}
    (same : accounts after = accounts before) :
    after.users.map UserRow.id = before.users.map UserRow.id := by
  have ids := congrArg (List.map Prod.fst) same
  simpa [accounts, List.map_map, Function.comp_def] using ids

theorem Books.refl (database : Database) : Books database database [] where
  amounts := fun key => by simp
  consistent := id
  rows := fun _ member => Or.inl member
  accounts := rfl
  sequence := rfl
  owned := by simp

theorem Books.trans {first second third : Database}
    {early late : List (RowKey × Counters)}
    (earlyBooks : Books first second early)
    (lateBooks : Books second third late) :
    Books first third (early ++ late) where
  amounts := by
    intro key
    rw [lateBooks.amounts, earlyBooks.amounts, tally_append,
      Finsupp.add_apply]
    abel
  consistent := fun consistent =>
    lateBooks.consistent (earlyBooks.consistent consistent)
  rows := by
    intro key member
    rw [List.map_append, List.mem_append]
    rcases lateBooks.rows key member with old | new
    · rcases earlyBooks.rows key old with older | booked
      · exact Or.inl older
      · exact Or.inr (Or.inl booked)
    · exact Or.inr (Or.inr new)
  accounts := lateBooks.accounts.trans earlyBooks.accounts
  sequence := lateBooks.sequence.trans earlyBooks.sequence
  owned := by
    intro booking member
    rcases List.mem_append.mp member with inEarly | inLate
    · exact earlyBooks.owned booking inEarly
    · rw [← ids_of_accounts earlyBooks.accounts]
      exact lateBooks.owned booking inLate

variable {database after : Database}

theorem referring_ok
    {userID : Int} {changed : Database}
    (done : database.referring userID changed = .ok after) :
    userID ∈ database.users.map UserRow.id ∧ after = changed := by
  unfold Database.referring at done
  cases found : database.userRow userID with
  | none =>
      rw [found] at done
      cases done
  | some row =>
      rw [found] at done
      obtain ⟨member, same⟩ := lookup_mem found
      exact ⟨List.mem_map.mpr ⟨row, member, same⟩,
        (Except.ok.inj done).symm⟩

theorem usage_key_add (row new : UsageRow) :
    (row.add new).key = row.key := rfl

theorem destination_key_add (row new : DestinationRow) :
    (row.add new).key = row.key := rfl

theorem usage_amount_add (row new : UsageRow) :
    usageRowCounters (row.add new) =
      usageRowCounters row + usageRowCounters new := rfl

theorem destination_amount_add (row new : DestinationRow) :
    destinationRowCounters (row.add new) =
      destinationRowCounters row + destinationRowCounters new := rfl

/-- The row that a delta adds to the usage ledger. -/
def usageRowOf (delta : UsageDelta) (period granularity : String) :
    UsageRow where
  userID := delta.userID
  periodStart := period
  granularity := granularity
  bytesIn := delta.bytesIn
  bytesOut := delta.bytesOut
  connections := delta.connections

def destinationRowOf (delta : DestinationDelta) : DestinationRow where
  userID := delta.userID
  day := delta.day
  host := delta.host
  port := delta.port
  protocol := delta.protocol
  requests := delta.requests
  blocked := delta.blocked
  bytesIn := delta.bytesIn
  bytesOut := delta.bytesOut
  lastSeen := formatTime delta.lastSeen

theorem books_addUsage
    {delta : UsageDelta} {period granularity : String}
    (done : (addUsage delta period granularity).run database =
      .ok after) :
    Books database after
      [(.usage delta.userID period granularity, usageCounters delta)] := by
  obtain ⟨owner, rfl⟩ := referring_ok done
  refine ⟨?_, ?_, ?_, rfl, rfl, List.forall_mem_singleton.mpr owner⟩
  · intro key
    cases key with
    | destination userID day slot =>
        simp [amountAt]
    | usage userID other sort =>
        have grown := @amount_upsert UsageRow _ _ UsageRow.key UsageRow.add
          database.usagePeriods (usageRowOf delta period granularity) _ _
          usageRowCounters (fun row => usage_key_add row _)
          (fun row => usage_amount_add row _) (userID, other, sort)
        refine grown.trans ?_
        rw [tally_cons, tally_nil, add_zero, Finsupp.single_apply]
        simp [amountAt, UsageRow.key, usageRowOf, usageRowCounters,
          usageCounters]
  · intro consistent
    refine ⟨unique_upsert (fun row => usage_key_add row _)
      consistent.usageKeys, consistent.destinationKeys, ?_,
      consistent.destinationOwners⟩
    intro row member
    rcases mem_upsert (fun row => usage_key_add row _) row member with
      new | ⟨old, listed, same⟩
    · have id : row.userID = delta.userID := congrArg Prod.fst new
      rw [id]
      exact owner
    · have id : old.userID = row.userID := congrArg Prod.fst same
      rw [← id]
      exact consistent.usageOwners old listed
  · intro key member
    rcases List.mem_append.mp member with inUsage | inDestinations
    · obtain ⟨row, listed, rfl⟩ := List.mem_map.mp inUsage
      rcases mem_upsert (fun row => usage_key_add row _) row listed with
        new | ⟨old, present, same⟩
      · refine Or.inr ?_
        have parts := Prod.mk.inj new
        have rest := Prod.mk.inj parts.2
        simp [usageRowKey, parts.1, rest.1, rest.2]
      · refine Or.inl (List.mem_append_left _ ?_)
        have parts := Prod.mk.inj same
        have rest := Prod.mk.inj parts.2
        exact List.mem_map.mpr ⟨old, present, by
          simp [usageRowKey, parts.1, rest.1, rest.2]⟩
    · exact Or.inl (List.mem_append_right _ inDestinations)

theorem books_addDestination
    {delta : DestinationDelta}
    (done : (addDestination delta).run database = .ok after) :
    Books database after
      [(.destination delta.userID delta.day (destinationKey delta),
        destinationCounters delta)] := by
  obtain ⟨owner, rfl⟩ := referring_ok done
  refine ⟨?_, ?_, ?_, rfl, rfl, List.forall_mem_singleton.mpr owner⟩
  · intro key
    cases key with
    | usage userID period granularity =>
        simp [amountAt]
    | destination userID day slot =>
        obtain ⟨host, port, protocol⟩ := slot
        have grown := @amount_upsert DestinationRow _ _ DestinationRow.key
          DestinationRow.add database.destinationStats
          (destinationRowOf delta) _ _ destinationRowCounters
          (fun row => destination_key_add row _)
          (fun row => destination_amount_add row _)
          (userID, day, host, port, protocol)
        refine grown.trans ?_
        rw [tally_cons, tally_nil, add_zero, Finsupp.single_apply]
        simp [amountAt, DestinationRow.key, destinationRowOf,
          destinationRowCounters, destinationKey, destinationCounters]
  · intro consistent
    refine ⟨consistent.usageKeys,
      unique_upsert (fun row => destination_key_add row _)
        consistent.destinationKeys, consistent.usageOwners, ?_⟩
    intro row member
    rcases mem_upsert (fun row => destination_key_add row _) row
      member with new | ⟨old, listed, same⟩
    · have id : row.userID = delta.userID := congrArg Prod.fst new
      rw [id]
      exact owner
    · have id : old.userID = row.userID := congrArg Prod.fst same
      rw [← id]
      exact consistent.destinationOwners old listed
  · intro key member
    rcases List.mem_append.mp member with inUsage | inDestinations
    · exact Or.inl (List.mem_append_left _ inUsage)
    · obtain ⟨row, listed, rfl⟩ := List.mem_map.mp inDestinations
      rcases mem_upsert (fun row => destination_key_add row _) row
        listed with new | ⟨old, present, same⟩
      · refine Or.inr ?_
        simp only [DestinationRow.key, Prod.mk.injEq] at new
        obtain ⟨id, day, host, port, protocol⟩ := new
        simp [destinationRowKey, destinationKey, id, day, host, port,
          protocol]
      · refine Or.inl (List.mem_append_right _ ?_)
        simp only [DestinationRow.key, Prod.mk.injEq] at same
        obtain ⟨id, day, host, port, protocol⟩ := same
        exact List.mem_map.mpr ⟨old, present, by
          simp [destinationRowKey, id, day, host, port, protocol]⟩

/-- A change that concerns neither the traffic tables nor the accounts. -/
theorem books_nothing
    (usage : after.usagePeriods = database.usagePeriods)
    (destinations : after.destinationStats = database.destinationStats)
    (same : accounts after = accounts database)
    (sequence : after.userSequence = database.userSequence) :
    Books database after [] := by
  refine ⟨?_, ?_, ?_, same, sequence, by simp⟩
  · intro key
    cases key <;> simp [amountAt, usage, destinations]
  · intro consistent
    have ids := ids_of_accounts same
    refine ⟨?_, ?_, ?_, ?_⟩
    · rw [usage]
      exact consistent.usageKeys
    · rw [destinations]
      exact consistent.destinationKeys
    · rw [usage, ids]
      exact consistent.usageOwners
    · rw [destinations, ids]
      exact consistent.destinationOwners
  · intro key member
    rw [rowKeys, usage, destinations] at member
    exact Or.inl member

/-- An update of users that keeps their names. -/
theorem accounts_updateWhere
    {condition : UserRow → Bool} {change : UserRow → UserRow}
    (id : ∀ row, (change row).id = row.id)
    (username : ∀ row, (change row).username = row.username) :
    accounts { database with
      users := updateWhere condition change database.users } =
        accounts database := by
  rw [accounts, accounts, updateWhere, List.map_map]
  apply List.map_congr_left
  intro row _
  by_cases matched : condition row = true <;>
    simp [matched, id, username]

theorem books_stampLastSeen
    {delta : UsageDelta}
    (done : (stampLastSeen delta).run database = .ok after) :
    Books database after [] := by
  rw [← Except.ok.inj done]
  exact books_nothing rfl rfl
    (accounts_updateWhere (fun _ => rfl) fun _ => rfl) rfl

/-! ## Transactions -/

/-- What a delta books under its user, day and month. -/
def usageRowBookings (delta : UsageDelta) : List (RowKey × Counters) :=
  [(.usage delta.userID delta.day "day", usageCounters delta),
    (.usage delta.userID delta.month "month", usageCounters delta)]

def destinationRowBooking (delta : DestinationDelta) :
    RowKey × Counters :=
  (.destination delta.userID delta.day (destinationKey delta),
    destinationCounters delta)

def rowBookings
    (usage : List UsageDelta) (destinations : List DestinationDelta) :
    List (RowKey × Counters) :=
  usage.flatMap usageRowBookings ++
    destinations.map destinationRowBooking

theorem books_usage
    {usage : List UsageDelta}
    (done : executeAll (usage.flatMap fun delta =>
        [addUsage delta delta.day "day",
          addUsage delta delta.month "month"] ++
        if 0 < delta.lastSeenUnix then [stampLastSeen delta] else [])
      database = .ok after) :
    Books database after (usage.flatMap usageRowBookings) := by
  induction usage generalizing database with
  | nil =>
      rw [← Except.ok.inj done]
      exact Books.refl database
  | cons delta rest inductionHypothesis =>
      rw [List.flatMap_cons] at done
      obtain ⟨middle, first, later⟩ := executeAll_append.mp done
      rw [List.flatMap_cons]
      apply Books.trans ?_ (inductionHypothesis later)
      obtain ⟨ledger, upserts, stamp⟩ := executeAll_append.mp first
      have day : ∃ dayed,
          (addUsage delta delta.day "day").run database = .ok dayed ∧
            (addUsage delta delta.month "month").run dayed =
              .ok ledger := by
        rw [executeAll] at upserts
        cases dayRun : (addUsage delta delta.day "day").run database with
        | error error =>
            rw [dayRun] at upserts
            cases upserts
        | ok dayed =>
            rw [dayRun] at upserts
            simp only [executeAll] at upserts
            cases monthRun :
                (addUsage delta delta.month "month").run dayed with
            | error error =>
                rw [monthRun] at upserts
                cases upserts
            | ok monthed =>
                rw [monthRun] at upserts
                exact ⟨dayed, rfl, monthRun.trans upserts⟩
      obtain ⟨dayed, dayRun, monthRun⟩ := day
      have both := (books_addUsage dayRun).trans (books_addUsage monthRun)
      have stamped : Books ledger middle [] := by
        by_cases positive : 0 < delta.lastSeenUnix
        · rw [if_pos positive, executeAll] at stamp
          cases run : (stampLastSeen delta).run ledger with
          | error error =>
              rw [run] at stamp
              cases stamp
          | ok changed =>
              rw [run] at stamp
              exact books_stampLastSeen (run.trans stamp)
        · rw [if_neg positive] at stamp
          rw [← Except.ok.inj stamp]
          exact Books.refl ledger
      exact both.trans stamped

theorem books_destinations
    {destinations : List DestinationDelta}
    (done : executeAll (destinations.map addDestination) database =
      .ok after) :
    Books database after (destinations.map destinationRowBooking) := by
  induction destinations generalizing database with
  | nil =>
      rw [← Except.ok.inj done]
      exact Books.refl database
  | cons delta rest inductionHypothesis =>
      rw [List.map_cons, executeAll] at done
      cases run : (addDestination delta).run database with
      | error error =>
          rw [run] at done
          cases done
      | ok changed =>
          rw [run] at done
          exact (books_addDestination run).trans (inductionHypothesis done)

/-- What a committed `ApplyDeltas` has done. -/
theorem books_applyDeltas
    {usage : List UsageDelta} {destinations : List DestinationDelta}
    {cursor : LogCursor}
    (done : executeAll (applyDeltasStatements usage destinations cursor)
      database = .ok after) :
    Books database after (rowBookings usage destinations) ∧
      after.logCursor = some cursor := by
  obtain ⟨applied, traffic, saved⟩ := executeAll_append.mp done
  obtain ⟨ledger, first, second⟩ := executeAll_append.mp traffic
  have cursorSaved : after = { applied with logCursor := some cursor } :=
    (Except.ok.inj saved).symm
  have booked := (books_usage first).trans (books_destinations second)
  have last : Books applied after [] := by
    rw [cursorSaved]
    exact books_nothing rfl rfl rfl rfl
  have all := booked.trans last
  rw [List.append_nil] at all
  exact ⟨all, by rw [cursorSaved]⟩

/-- A change that removes rows and leaves the others alone. -/
structure Removes
    (before after : Database) (gone : RowKey → Bool) : Prop where
  amounts : ∀ key,
    amountAt after key = if gone key then 0 else amountAt before key
  rows : ∀ key ∈ rowKeys after, key ∈ rowKeys before ∧ gone key = false

/-- `DELETE` on both traffic tables by conditions on the keys. -/
theorem removes_deleteWhere
    {gone : RowKey → Bool} (consistent : TrafficConsistent database)
    (usage : after.usagePeriods =
      deleteWhere (fun row => gone (usageRowKey row))
        database.usagePeriods)
    (destinations : after.destinationStats =
      deleteWhere (fun row => gone (destinationRowKey row))
        database.destinationStats) :
    Removes database after gone where
  amounts := by
    intro key
    cases key with
    | usage userID period granularity =>
        rw [amountAt, usage, lookup_deleteWhere consistent.usageKeys,
          amountAt]
        cases found : lookup UsageRow.key database.usagePeriods
          (userID, period, granularity) with
        | none => simp
        | some row =>
            have key : usageRowKey row =
                .usage userID period granularity := by
              have same := (lookup_mem found).2
              simp only [UsageRow.key, Prod.mk.injEq] at same
              simp [usageRowKey, same]
            by_cases removed :
                gone (.usage userID period granularity) = true
            · simp [Option.filter, key, removed]
            · simp [Option.filter, key, removed]
    | destination userID day slot =>
        rw [amountAt, destinations,
          lookup_deleteWhere consistent.destinationKeys, amountAt]
        cases found : lookup DestinationRow.key database.destinationStats
          (userID, day, slot.host, slot.port, slot.protocol) with
        | none => simp
        | some row =>
            have key : destinationRowKey row =
                .destination userID day slot := by
              have same := (lookup_mem found).2
              simp only [DestinationRow.key, Prod.mk.injEq] at same
              simp [destinationRowKey, same]
            by_cases removed :
                gone (.destination userID day slot) = true
            · simp [Option.filter, key, removed]
            · simp [Option.filter, key, removed]
  rows := by
    intro key member
    rw [rowKeys, usage, destinations] at member
    rcases List.mem_append.mp member with inUsage | inDestinations
    · obtain ⟨row, listed, rfl⟩ := List.mem_map.mp inUsage
      obtain ⟨old, spared⟩ := mem_deleteWhere.mp listed
      exact ⟨List.mem_append_left _ (List.mem_map_of_mem old), spared⟩
    · obtain ⟨row, listed, rfl⟩ := List.mem_map.mp inDestinations
      obtain ⟨old, spared⟩ := mem_deleteWhere.mp listed
      exact ⟨List.mem_append_right _ (List.mem_map_of_mem old), spared⟩

end Xoxproxy.Analytics
