import Xoxproxy.Analytics.Balance
import Xoxproxy.Analytics.Conservation

/-!
# The three ledgers agree

Every charge is counted in a day, in the month of that day and under one
destination of that day.  As long as rows are removed for whole accounts
only, the three tables show the same sums.
-/

namespace Xoxproxy.Analytics

open RowTables Transactions Tallies

def usageSum (database : Database) (keep : UsageRow → Bool) : Counters :=
  ((database.usagePeriods.filter keep).map usageRowCounters).sum

def destinationSum (database : Database) (keep : DestinationRow → Bool) :
    Counters :=
  ((database.destinationStats.filter keep).map
    destinationRowCounters).sum

/-- Months amount to their days, and days to their destinations; the usage
tables do not tell blocked requests apart. -/
structure LedgersAgree (database : Database) : Prop where
  months : ∀ userID month,
    amountAt database (.usage userID month "month") =
      usageSum database fun row =>
        row.userID = userID && row.granularity = "day" &&
          monthOf row.periodStart = month
  days : ∀ userID day,
    amountAt database (.usage userID day "day") =
      (destinationSum database fun row =>
        row.userID = userID && row.day = day).unsorted

/-- The days of a user's month. -/
def RowKey.inMonth (userID : Int) (month : String) : RowKey → Bool
  | .usage id period granularity =>
      id = userID && granularity = "day" && monthOf period = month
  | .destination _ _ _ => false

/-- The destinations of a user's day. -/
def RowKey.ofDay (userID : Int) (date : String) : RowKey → Bool
  | .usage _ _ _ => false
  | .destination id day _ => id = userID && day = date

theorem total_usage (database : Database) (keep : RowKey → Bool)
    (usageOnly : ∀ row, keep (destinationRowKey row) = false) :
    total keep (databaseBookings database) =
      usageSum database fun row => keep (usageRowKey row) := by
  have none : (database.destinationStats.map fun row =>
      (destinationRowKey row, destinationRowCounters row)).filter
        (fun booking => keep booking.1) = [] := by
    simp [List.filter_eq_nil_iff, usageOnly]
  rw [total, databaseBookings, List.filter_append, none,
    List.append_nil, List.filter_map, List.map_map]
  rfl

theorem total_destinations (database : Database) (keep : RowKey → Bool)
    (destinationsOnly : ∀ row, keep (usageRowKey row) = false) :
    total keep (databaseBookings database) =
      destinationSum database fun row => keep (destinationRowKey row) := by
  have none : (database.usagePeriods.map fun row =>
      (usageRowKey row, usageRowCounters row)).filter
        (fun booking => keep booking.1) = [] := by
    simp [List.filter_eq_nil_iff, destinationsOnly]
  rw [total, databaseBookings, List.filter_append, none,
    List.nil_append, List.filter_map, List.map_map]
  rfl

/-- What some records amount to in the usage tables. -/
def usageOf (charges : List (Int × Posting))
    (counts : Int × Posting → Bool) : Counters :=
  (charges.map fun charge =>
    if counts charge then
      (Counters.ofRecord charge.2.entry.record).unsorted
    else 0).sum

def Posting.day (posting : Posting) : String := posting.entry.record.day

/-- A charge is counted three times. -/
theorem total_charge (keep : RowKey → Bool) (charge : Int × Posting) :
    total keep (chargeBookings charge) =
      (if keep (.usage charge.1 charge.2.day "day") then
        (Counters.ofRecord charge.2.entry.record).unsorted else 0) +
      (if keep (.usage charge.1 (monthOf charge.2.day) "month") then
        (Counters.ofRecord charge.2.entry.record).unsorted else 0) +
      if keep (.destination charge.1 charge.2.day charge.2.slot) then
        Counters.ofRecord charge.2.entry.record else 0 := by
  have one : ∀ key (amount : Counters),
      total keep [(key, amount)] = if keep key then amount else 0 := by
    intro key amount
    by_cases kept : keep key = true
    · simp [total, kept]
    · simp [total, kept]
  have split : chargeBookings charge =
      [(.usage charge.1 charge.2.day "day",
          (Counters.ofRecord charge.2.entry.record).unsorted)] ++
        [(.usage charge.1 (monthOf charge.2.day) "month",
          (Counters.ofRecord charge.2.entry.record).unsorted)] ++
        [(.destination charge.1 charge.2.day charge.2.slot,
          Counters.ofRecord charge.2.entry.record)] := rfl
  rw [split, total_append, total_append, one, one, one]

/-- The amount of a month row. -/
theorem tally_month (charges : List (Int × Posting))
    (userID : Int) (month : String) :
    tally (charges.flatMap chargeBookings)
        (.usage userID month "month") =
      usageOf charges fun charge =>
        charge.1 = userID && monthOf charge.2.day = month := by
  rw [tally_eq_total]
  refine total_flatMap ?_ charges
  intro charge
  simp [total_charge]

/-- The amount of a day row. -/
theorem tally_day (charges : List (Int × Posting))
    (userID : Int) (day : String) :
    tally (charges.flatMap chargeBookings) (.usage userID day "day") =
      usageOf charges fun charge =>
        charge.1 = userID && charge.2.day = day := by
  rw [tally_eq_total]
  refine total_flatMap ?_ charges
  intro charge
  simp [total_charge]

/-- The amount of the day rows of a month. -/
theorem total_inMonth (charges : List (Int × Posting))
    (userID : Int) (month : String) :
    total (RowKey.inMonth userID month)
        (charges.flatMap chargeBookings) =
      usageOf charges fun charge =>
        charge.1 = userID && monthOf charge.2.day = month := by
  refine total_flatMap ?_ charges
  intro charge
  simp [total_charge, RowKey.inMonth]

/-- The amount of the destination rows of a day. -/
theorem total_ofDay (charges : List (Int × Posting))
    (userID : Int) (day : String) :
    (total (RowKey.ofDay userID day)
        (charges.flatMap chargeBookings)).unsorted =
      usageOf charges fun charge =>
        charge.1 = userID && charge.2.day = day := by
  have destinations : ∀ charge,
      total (RowKey.ofDay userID day) (chargeBookings charge) =
        if charge.1 = userID ∧ charge.2.day = day then
          Counters.ofRecord charge.2.entry.record else 0 := by
    intro charge
    simp [total_charge, RowKey.ofDay]
  rw [total_flatMap destinations, unsorted_sum, List.map_map, usageOf]
  congr 1
  apply List.map_congr_left
  intro charge _
  by_cases counted : charge.1 = userID ∧ charge.2.day = day
  · simp [counted]
  · simp [counted]

/-- Tables that hold what was charged, and nothing else, agree. -/
theorem ledgersAgree_of_charges {database : Database}
    (consistent : TrafficConsistent database)
    {charges : List (Int × Posting)}
    (amounts : ∀ key, amountAt database key =
      tally (charges.flatMap chargeBookings) key) :
    LedgersAgree database := by
  have same : tally (databaseBookings database) =
      tally (charges.flatMap chargeBookings) := by
    ext1 key
    rw [tally_databaseBookings consistent, amounts]
  constructor
  · intro userID month
    have days := total_congr same (RowKey.inMonth userID month)
    rw [total_usage database _ fun _ => rfl, total_inMonth] at days
    rw [amounts, tally_month, ← days]
    rfl
  · intro userID day
    have destinations := total_congr same (RowKey.ofDay userID day)
    rw [total_destinations database _ fun _ => rfl] at destinations
    rw [amounts, tally_day, ← total_ofDay, ← destinations]
    rfl

/-- No quota is reset and no destination pruned. -/
def Undisturbed : PipelineAction → Prop
  | .resetUsage _ _ _ => False
  | .prune _ _ => False
  | _ => True

/-- The books hold the rows of whole charges. -/
def WholeCharges (s : Pipeline) : Prop :=
  ∃ charges : List (Int × Posting),
    s.trace.ledger = charges.flatMap chargeRows

theorem filter_chargeRows (keep : Int → Bool)
    (charges : List (Int × Posting)) :
    (charges.flatMap chargeRows).filter
        (fun booking => keep booking.1.userID) =
      (charges.filter fun charge => keep charge.1).flatMap chargeRows := by
  induction charges with
  | nil => rfl
  | cons charge rest inductionHypothesis =>
      rw [List.flatMap_cons, List.filter_append, inductionHypothesis]
      by_cases kept : keep charge.1 = true
      · simp [chargeRows, Trace.rowsOf, RowKey.userID, kept]
      · simp [chargeRows, Trace.rowsOf, RowKey.userID, kept]

section Runs

variable [Build] {options : Options} {s after : Pipeline}
variable {action : PipelineAction}

theorem WholeCharges.move (whole : WholeCharges s)
    (undisturbed : Undisturbed action)
    (move : Move options s action after) : WholeCharges after := by
  obtain ⟨charges, booked⟩ := whole
  cases move with
  | reset | prune => exact undisturbed.elim
  | store op choice =>
      have filtered := filter_chargeRows (fun id => decide (id ∈
        (s.host.handle op choice).2.database.users.map UserRow.id)) charges
      refine ⟨charges.filter fun charge => decide (charge.1 ∈
        (s.host.handle op choice).2.database.users.map UserRow.id), ?_⟩
      rw [← filtered, ← booked]
      rfl
  | commit choice resolution database resolving finished done =>
      refine ⟨charges ++ chargesOf resolution.idOf s.trace.batch, ?_⟩
      rw [List.flatMap_append, ← booked]
      rfl
  | direct | receive => exact ⟨charges, (add_ledger _ _ _).trans booked⟩
  | _ => exact ⟨charges, booked⟩

end Runs

/-- In every state of a run without resets and pruning, whatever is
overflowed, retried or read again, months amount to their days and days to
their destinations.  A day belongs to the month of the calendar. -/
theorem ledgers_agree [Build] (options : Options)
    (actions : List PipelineAction)
    (undisturbed : ∀ action ∈ actions, Undisturbed action) :
    LedgersAgree (Runs.run (Pipeline.step options) actions
        (Pipeline.initial options)).host.database ∧
      ∀ time, 0 ≤ (dateOfTime time).year →
        (dateOfTime time).year < 10000 →
          monthOf (formatDay time) = formatMonth time := by
  refine ⟨?_, fun time lower upper => monthOf_formatDay lower upper⟩
  have whole : WholeCharges (Runs.run (Pipeline.step options) actions
      (Pipeline.initial options)) := by
    apply @run_invariant _ _ WholeCharges (fun _ => Undisturbed)
    · intro s action after move allowed whole
      exact whole.move allowed move
    · intro s whole
      exact whole
    · exact ⟨[], rfl⟩
    · exact Runs.meets_of_forall undisturbed _
  have balanced := (run_balanced options actions).2
  obtain ⟨charges, booked⟩ := whole
  apply ledgersAgree_of_charges balanced.traffic
  intro key
  rw [balanced.amounts, booked, ledgerBookings_chargeRows]

/-- Two destinations under a cap of one. -/
def cappedActions : List PipelineAction :=
  [createAccount "alice",
    .append (bytesOf (connectionLine "alice" "a.example")),
    .append (bytesOf (connectionLine "alice" "b.example"))] ++
  tailerPass 2 ++ flushPass 2 1

theorem ledgers_agree_capped :
    (∀ action ∈ cappedActions, Undisturbed action) ∧
      LedgersAgree (Runs.run (@Pipeline.step Build.dev sampleOptions)
        cappedActions (Pipeline.initial sampleOptions)).host.database ∧
      ∀ time, 0 ≤ (dateOfTime time).year →
        (dateOfTime time).year < 10000 →
          monthOf (formatDay time) = formatMonth time := by
  have undisturbed : ∀ action ∈ cappedActions, Undisturbed action := by
    simp [cappedActions, tailerPass, flushPass, createAccount, Undisturbed]
  exact ⟨undisturbed,
    @ledgers_agree Build.dev sampleOptions cappedActions undisturbed⟩

end Xoxproxy.Analytics
