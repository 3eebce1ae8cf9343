import Mathlib.Algebra.Order.BigOperators.Group.List
import Mathlib.Tactic.Linarith

/-!
# The civil calendar

Days and dates of the proleptic Gregorian calendar.  Days are counted from
the first of January of the year zero, so that leap years fall on the
multiples of four.
-/

namespace CivilCalendar

/-- The year has a 29th of February. -/
def isLeap (year : Int) : Bool :=
  decide (year % 4 = 0 ∧ (year % 100 ≠ 0 ∨ year % 400 = 0))

/-- The first of January of a year. -/
def firstDay (year : Int) : Int :=
  365 * year + (year + 3) / 4 - (year + 99) / 100 + (year + 399) / 400

/-- The number of days of a year. -/
def yearLength (year : Int) : Int :=
  if isLeap year then 366 else 365

theorem firstDay_succ (year : Int) :
    firstDay (year + 1) = firstDay year + yearLength year := by
  unfold firstDay yearLength isLeap
  split <;> rename_i leap <;> simp only [decide_eq_true_eq] at leap <;>
    omega

/-- A first guess at the year of a day, at most one year off. -/
def roughYear (day : Int) : Int := 400 * day / 146097

/-- The year in which a day lies. -/
def yearOf (day : Int) : Int :=
  if day < firstDay (roughYear day) then roughYear day - 1
  else if firstDay (roughYear day + 1) ≤ day then roughYear day + 1
  else roughYear day

theorem firstDay_bounds (year : Int) :
    146097 * year - 400 ≤ 400 * firstDay year ∧
      400 * firstDay year ≤ 146097 * year + 700 := by
  unfold firstDay
  omega

/-- A day lies in its year. -/
theorem yearOf_spec (day : Int) :
    firstDay (yearOf day) ≤ day ∧ day < firstDay (yearOf day + 1) := by
  have guess := firstDay_bounds (roughYear day)
  have before := firstDay_bounds (roughYear day - 1)
  have after := firstDay_bounds (roughYear day + 1)
  have later := firstDay_bounds (roughYear day + 1 + 1)
  have rough : 146097 * roughYear day ≤ 400 * day ∧
      400 * day < 146097 * roughYear day + 146097 := by
    unfold roughYear
    omega
  unfold yearOf
  split
  · have year : roughYear day - 1 + 1 = roughYear day := by omega
    rw [year]
    omega
  · split
    · omega
    · omega

/-- The lengths of the months. -/
def monthLengths (leap : Bool) : List Nat :=
  [31, if leap then 29 else 28, 31, 30, 31, 30, 31, 31, 30, 31, 30, 31]

/-- Walk through segments of the given lengths: the segment that contains
an offset, and the offset inside it. -/
def locate : List Nat → Nat → Nat × Nat
  | [], offset => (0, offset)
  | length :: rest, offset =>
      if offset < length then (0, offset)
      else
        ((locate rest (offset - length)).1 + 1,
          (locate rest (offset - length)).2)

/-- An offset within the total length is found where it lies. -/
theorem locate_spec
    {lengths : List Nat} {offset : Nat} (inside : offset < lengths.sum) :
    ∃ length, lengths[(locate lengths offset).1]? = some length ∧
      (locate lengths offset).2 < length ∧
      (lengths.take (locate lengths offset).1).sum +
        (locate lengths offset).2 = offset := by
  induction lengths generalizing offset with
  | nil => simp at inside
  | cons length rest induction =>
      by_cases here : offset < length
      · refine ⟨length, ?_, ?_, ?_⟩ <;> simp [locate, here]
      · have further : offset - length < rest.sum := by
          rw [List.sum_cons] at inside
          omega
        obtain ⟨found, segment, below, total⟩ := induction further
        refine ⟨found, ?_, ?_, ?_⟩
        · simpa [locate, here] using segment
        · simpa [locate, here] using below
        · simp only [locate, here, if_false, List.take_succ_cons,
            List.sum_cons]
          omega

theorem sum_monthLengths (year : Int) :
    (monthLengths (isLeap year)).sum = (yearLength year).toNat := by
  unfold yearLength
  cases isLeap year <;> rfl

/-- A date; months and days count from one. -/
@[ext]
structure Date where
  year : Int
  month : Nat
  day : Nat
  deriving DecidableEq, Repr

/-- The month exists and has the day. -/
def Date.Valid (date : Date) : Prop :=
  ∃ length, (monthLengths (isLeap date.year))[date.month - 1]? =
      some length ∧
    1 ≤ date.month ∧ 1 ≤ date.day ∧ date.day ≤ length

/-- The date of a day. -/
def dateOf (day : Int) : Date :=
  let place :=
    locate (monthLengths (isLeap (yearOf day)))
      (day - firstDay (yearOf day)).toNat
  ⟨yearOf day, place.1 + 1, place.2 + 1⟩

/-- The day of a date. -/
def dayOf (date : Date) : Int :=
  firstDay date.year +
    (((monthLengths (isLeap date.year)).take (date.month - 1)).sum +
      (date.day - 1) : Nat)

theorem offset_lt (day : Int) :
    (day - firstDay (yearOf day)).toNat <
      (monthLengths (isLeap (yearOf day))).sum := by
  have inYear := yearOf_spec day
  rw [firstDay_succ] at inYear
  rw [sum_monthLengths]
  omega

/-- Every day has a date that exists. -/
theorem dateOf_valid (day : Int) : (dateOf day).Valid := by
  obtain ⟨length, found, below, -⟩ := locate_spec (offset_lt day)
  refine ⟨length, ?_, ?_, ?_, ?_⟩
  · simpa [dateOf] using found
  · simp [dateOf]
  · simp [dateOf]
  · exact below

/-- A day is the day of its date. -/
theorem dayOf_dateOf (day : Int) : dayOf (dateOf day) = day := by
  obtain ⟨length, -, -, total⟩ := locate_spec (offset_lt day)
  have inYear := yearOf_spec day
  simp only [dayOf, dateOf, Nat.add_sub_cancel]
  rw [total]
  omega

theorem Date.Valid.bounds {date : Date} (valid : date.Valid) :
    date.month < 100 ∧ date.day < 100 := by
  obtain ⟨length, found, -, -, upper⟩ := valid
  have within := (List.getElem?_eq_some_iff.mp found).1
  have member := List.mem_of_getElem? found
  have short : ∀ leap, ∀ length ∈ monthLengths leap, length < 100 := by
    decide
  have twelve : ∀ leap, (monthLengths leap).length = 12 := by
    decide
  rw [twelve] at within
  have below := short _ length member
  omega

/-- The date is earlier, by its year, its month and its day. -/
def Date.Before (date other : Date) : Prop :=
  date.year < other.year ∨
    date.year = other.year ∧
      (date.month < other.month ∨
        date.month = other.month ∧ date.day < other.day)

theorem firstDay_mono {year other : Int} (ordered : year ≤ other) :
    firstDay year ≤ firstDay other := by
  unfold firstDay
  omega

/-- A date lies in its year. -/
theorem Date.Valid.dayOf_lt {date : Date} (valid : date.Valid) :
    dayOf date < firstDay (date.year + 1) := by
  obtain ⟨length, found, month, day, upper⟩ := valid
  have within := (List.getElem?_eq_some_iff.mp found).1
  have total := sum_monthLengths date.year
  have upTo : ((monthLengths (isLeap date.year)).take
      (date.month - 1)).sum + length ≤
        (monthLengths (isLeap date.year)).sum := by
    have next := List.sum_take_succ _ _ within
    have value := (List.getElem?_eq_some_iff.mp found).2
    have whole : ((monthLengths (isLeap date.year)).take
        (date.month - 1 + 1)).sum ≤
          (monthLengths (isLeap date.year)).sum := by
      have grows := List.monotone_sum_take
        (monthLengths (isLeap date.year)) within
      simpa only [List.take_length] using grows
    omega
  have positive : 0 ≤ yearLength date.year := by
    unfold yearLength
    split <;> omega
  rw [firstDay_succ]
  unfold dayOf
  omega

theorem dayOf_ge (date : Date) : firstDay date.year ≤ dayOf date := by
  unfold dayOf
  omega

/-- Earlier dates are earlier days. -/
theorem dayOf_lt_of_before
    {date other : Date} (valid : date.Valid)
    (before : date.Before other) : dayOf date < dayOf other := by
  rcases before with year | ⟨sameYear, month | ⟨sameMonth, day⟩⟩
  · have upper := valid.dayOf_lt
    have lower := dayOf_ge other
    have between := firstDay_mono (Int.add_one_le_iff.mpr year)
    omega
  · obtain ⟨length, found, first, day, upper⟩ := valid
    have within := (List.getElem?_eq_some_iff.mp found).1
    have value := (List.getElem?_eq_some_iff.mp found).2
    have next := List.sum_take_succ _ _ within
    have grows : ((monthLengths (isLeap date.year)).take
        (date.month - 1 + 1)).sum ≤
          ((monthLengths (isLeap date.year)).take
            (other.month - 1)).sum :=
      List.monotone_sum_take _ (by omega)
    unfold dayOf
    rw [← sameYear]
    omega
  · obtain ⟨_, _, _, first, _⟩ := valid
    unfold dayOf
    rw [← sameYear, ← sameMonth]
    omega

/-- The order of dates is the order of days. -/
theorem dayOf_lt_iff
    {date other : Date} (valid : date.Valid) (otherValid : other.Valid) :
    dayOf date < dayOf other ↔ date.Before other := by
  constructor
  · intro earlier
    by_cases before : date.Before other
    · exact before
    · by_cases same : date = other
      · subst same
        omega
      · have after : other.Before date := by
          unfold Date.Before at before ⊢
          have parts : ¬ (date.year = other.year ∧
              date.month = other.month ∧ date.day = other.day) := by
            rintro ⟨year, month, day⟩
            exact same (by cases date; cases other; simp_all)
          omega
        have later := dayOf_lt_of_before otherValid after
        omega
  · exact dayOf_lt_of_before valid

example : dateOf (719528 + 20000) = ⟨2024, 10, 4⟩ := by decide

end CivilCalendar
