import Xoxproxy.Store.DestinationQueries

/-!
# The window of the analytics handlers

The lower bounds of `internal/api/analytics_handlers.go`, and the days
that the queries behind one answer include.
-/

namespace Xoxproxy.Api

/-- `AddDate(0, 0, days)` of a UTC time: the day moves in the calendar, the
time of day stays. -/
def addDays (time : Time) (days : Int) : Time :=
  (CivilCalendar.dayOf (dateOfTime time) - unixDay + days) *
    86400000000000 + time % 86400000000000

/-- `sinceDayFrom`, at some instant. -/
def sinceDayFrom (now : Time) (days : Int) : String :=
  formatDay (addDays now (-days))

/-- `sinceTimeFrom`, at some instant. -/
def sinceTimeFrom (now : Time) (days : Int) : Time :=
  addDays (startOfDay now) (-(days - 1))

theorem addDays_eq (time days : Int) :
    addDays time days = time + days * 86400000000000 := by
  have day := CivilCalendar.dayOf_dateOf (time / 1000000000 / 86400 + unixDay)
  unfold addDays dateOfTime
  rw [day]
  have split : ∀ instant : Int,
      (instant / 1000000000 / 86400 + unixDay - unixDay + days) *
          86400000000000 + instant % 86400000000000 =
        instant + days * 86400000000000 := by
    intro instant
    omega
  exact split time

theorem dayNumber_addDays (time days : Int) :
    dayNumber (addDays time days) = dayNumber time + days := by
  rw [addDays_eq]
  unfold dayNumber
  omega

theorem dayNumber_startOfDay (time : Int) :
    dayNumber (startOfDay time) = dayNumber time := by
  unfold dayNumber startOfDay
  omega

/-- Whether the destination query includes the rows of a day. -/
def DestinationsInclude (now : Time) (days : Int) (day : String) : Prop :=
  ¬ day < sinceDayFrom now days

/-- Whether the traffic history includes the rows of a day. -/
def HistoryIncludes (now : Time) (days : Int) (day : String) : Prop :=
  ¬ day < formatDay (sinceTimeFrom now days)

section Queries

variable {database : Database} {userID now days : Int}

theorem ofUserSince_iff (row : DestinationRow) :
    row.ofUserSince userID (sinceDayFrom now days) = true ↔
      row.userID = userID ∧ DestinationsInclude now days row.day := by
  simp [DestinationRow.ofUserSince, DestinationRow.since,
    DestinationsInclude]

theorem mem_userTrafficRows (row : PeriodRow) :
    row ∈ database.userTrafficRows userID (sinceTimeFrom now days) ↔
      ∃ usage ∈ database.usagePeriods, usage.userID = userID ∧
        usage.granularity = "day" ∧
        HistoryIncludes now days usage.periodStart ∧
        (⟨usage.periodStart, usage.granularity, usage.bytesIn,
          usage.bytesOut, usage.connections⟩ : PeriodRow) = row := by
  unfold Database.userTrafficRows
  simp [Database.userDayRows, (List.mergeSort_perm _ _).mem_iff,
    HistoryIncludes, and_assoc]

end Queries

/-- Both queries of an answer include the same UTC days. -/
def SameDays (now : Time) (days : Int) : Prop :=
  ∀ time, DestinationsInclude now days (formatDay time) ↔
    HistoryIncludes now days (formatDay time)

/-- Queries that include the same days have the same lower bound. -/
theorem SameDays.bounds {now : Time} {days : Int}
    (same : SameDays now days) :
    sinceDayFrom now days = formatDay (sinceTimeFrom now days) := by
  by_contra different
  -- The earlier of two bounds is included by its own query only.
  rcases lt_or_gt_of_ne different with before | behind
  · exact (same (addDays now (-days))).mp (lt_irrefl _) before
  · exact (same (sinceTimeFrom now days)).mpr (lt_irrefl _) behind

theorem dayNumber_sinceTimeFrom (now : Time) (days : Int) :
    dayNumber (sinceTimeFrom now days) = dayNumber now - days + 1 := by
  rw [sinceTimeFrom, dayNumber_addDays, dayNumber_startOfDay]
  omega

/-- At no instant and for no window do the two queries include the same
days. -/
theorem windows_differ (now : Time) (days : Int) : ¬ SameDays now days := by
  intro same
  have numbers := (formatDay_eq_iff _ _).mp same.bounds
  rw [dayNumber_addDays, dayNumber_sinceTimeFrom] at numbers
  omega

/-- On September 14, 2026, the destinations of one day are those of two
days. -/
theorem one_day_is_two :
    ¬ SameDays 1789387200000000000 1 := by
  intro same
  have numbers := (formatDay_eq_iff _ _).mp same.bounds
  rw [dayNumber_addDays, dayNumber_sinceTimeFrom] at numbers
  exact absurd numbers (by decide)

/-- The destinations reach back one day further than the history. -/
theorem destinationsInclude_iff {now time : Time} {days : Int}
    (inRange : FourDigitYear time)
    (since : FourDigitYear (addDays now (-days)))
    (first : FourDigitYear (sinceTimeFrom now days)) :
    DestinationsInclude now days (formatDay time) ↔
      HistoryIncludes now days (formatDay time) ∨
        dayNumber time = dayNumber now - days := by
  unfold DestinationsInclude HistoryIncludes sinceDayFrom
  rw [formatDay_lt_iff inRange since, formatDay_lt_iff inRange first,
    dayNumber_addDays, dayNumber_sinceTimeFrom]
  omega

end Xoxproxy.Api
