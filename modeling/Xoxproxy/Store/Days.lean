import Xoxproxy.Store.TimestampOrder

/-!
# Days and months

The periods of the usage ledger are named by the text of their UTC day
(`2006-01-02`) or month (`2006-01`).
-/

namespace Xoxproxy

open CivilCalendar

/-- `Format("2006-01-02")`. -/
def formatDay (time : Time) : String :=
  let date := dateOfTime time
  String.ofList
    (yearText date.year ++
      '-' :: (fixedDigits 2 date.month ++ '-' :: fixedDigits 2 date.day))

/-- `Format("2006-01")`. -/
def formatMonth (time : Time) : String :=
  let date := dateOfTime time
  String.ofList
    (yearText date.year ++ '-' :: fixedDigits 2 date.month)

/-- `day[:7]`. -/
def monthOf (day : String) : String := String.ofList (day.toList.take 7)

/-- Midnight of the day in which an instant lies. -/
def startOfDay (time : Time) : Time :=
  time / 1000000000 / 86400 * 86400 * 1000000000

/-- The number of the UTC day in which an instant lies, from 1970 on. -/
def dayNumber (time : Time) : Int := time / 1000000000 / 86400

theorem foldl_fixedDigits (width value before : Nat) :
    (fixedDigits width value).foldl
      (fun read digit => 10 * read + (digit.toNat - '0'.toNat)) before =
        before * 10 ^ width + value % 10 ^ width := by
  induction width generalizing before with
  | zero => simp [fixedDigits, Nat.mod_one]
  | succ width inductionHypothesis =>
      obtain ⟨-, digit⟩ := digitChar_isDigit
        (Nat.mod_lt (value / 10 ^ width) (by decide : 0 < 10))
      rw [fixedDigits, List.foldl_cons, digit, inductionHypothesis,
        Nat.mod_pow_succ]
      ring

theorem decimal_fixedDigits {width value : Nat} (positive : 0 < width)
    (small : value < 10 ^ width) :
    decimal (fixedDigits width value) = some value := by
  have nonempty : fixedDigits width value ≠ [] := by
    apply List.ne_nil_of_length_pos
    rw [length_fixedDigits]
    exact positive
  have digits := List.all_eq_true.mpr (fixedDigits_isDigit width value)
  rw [decimal, if_pos ⟨nonempty, digits⟩, foldl_fixedDigits,
    Nat.zero_mul, Nat.zero_add, Nat.mod_eq_of_lt small]

/-- The digits of a year, without its sign. -/
theorem yearDigits (year : Int) :
    ∃ digits, yearText year = (if year < 0 then '-' :: digits else digits) ∧
      decimal digits = some year.natAbs ∧ '-' ∉ digits := by
  by_cases four : year.natAbs < 10000
  · refine ⟨fixedDigits 4 year.natAbs, ?_,
      decimal_fixedDigits (by decide) four, ?_⟩
    · rw [yearText, if_pos four]
    · intro member
      exact absurd (fixedDigits_isDigit 4 _ '-' member) (by decide)
  · have text : (toString year.natAbs).toList =
        Nat.toDigits 10 year.natAbs := Nat.toList_repr
    refine ⟨Nat.toDigits 10 year.natAbs, ?_, ?_, ?_⟩
    · rw [yearText, if_neg four]
    · rw [← text]
      exact decimal_natText _
    · intro member
      have digit :=
        Nat.isDigit_of_mem_toDigits (by decide) (by decide) member
      exact absurd digit (by decide)

theorem yearText_inj {first second : Int}
    (same : yearText first = yearText second) : first = second := by
  obtain ⟨digits, text, read, unsigned⟩ := yearDigits first
  obtain ⟨others, otherText, otherRead, otherUnsigned⟩ := yearDigits second
  rw [text, otherText] at same
  by_cases negative : first < 0 <;> by_cases alsoNegative : second < 0
  · rw [if_pos negative, if_pos alsoNegative] at same
    have size : first.natAbs = second.natAbs := by
      rw [(List.cons.inj same).2, otherRead] at read
      exact (Option.some.inj read).symm
    omega
  · rw [if_pos negative, if_neg alsoNegative] at same
    rw [← same] at otherUnsigned
    exact absurd List.mem_cons_self otherUnsigned
  · rw [if_neg negative, if_pos alsoNegative] at same
    rw [same] at unsigned
    exact absurd List.mem_cons_self unsigned
  · rw [if_neg negative, if_neg alsoNegative] at same
    have size : first.natAbs = second.natAbs := by
      rw [same, otherRead] at read
      exact (Option.some.inj read).symm
    omega

/-- Instants have the same day text exactly when they lie in the same
day. -/
theorem formatDay_eq_iff (first second : Time) :
    formatDay first = formatDay second ↔
      dayNumber first = dayNumber second := by
  constructor
  · intro same
    have texts := congrArg String.toList same
    rw [formatDay, formatDay, String.toList_ofList,
      String.toList_ofList] at texts
    have tails : ∀ time : Time,
        ('-' :: (fixedDigits 2 (dateOfTime time).month ++
          '-' :: fixedDigits 2 (dateOfTime time).day)).length = 6 := by
      intro time
      simp
    obtain ⟨years, rest⟩ :=
      List.append_inj' texts ((tails first).trans (tails second).symm)
    obtain ⟨months, behind⟩ :=
      List.append_inj (List.cons.inj rest).2 (by simp)
    have days := (List.cons.inj behind).2
    obtain ⟨firstMonth, firstDay⟩ := (dateOfTime_valid first).bounds
    obtain ⟨secondMonth, secondDay⟩ := (dateOfTime_valid second).bounds
    have month : (dateOfTime first).month = (dateOfTime second).month := by
      have read := congrArg decimal months
      rw [decimal_fixedDigits (by decide) firstMonth,
        decimal_fixedDigits (by decide) secondMonth] at read
      exact Option.some.inj read
    have day : (dateOfTime first).day = (dateOfTime second).day := by
      have read := congrArg decimal days
      rw [decimal_fixedDigits (by decide) firstDay,
        decimal_fixedDigits (by decide) secondDay] at read
      exact Option.some.inj read
    have dates : dateOfTime first = dateOfTime second := by
      have year := yearText_inj years
      cases firstDate : dateOfTime first
      cases secondDate : dateOfTime second
      simp_all
    have numbers := congrArg dayOf dates
    rw [dateOfTime, dateOfTime, dayOf_dateOf, dayOf_dateOf] at numbers
    exact add_right_cancel numbers
  · intro same
    have dates : dateOfTime first = dateOfTime second := by
      unfold dayNumber at same
      rw [dateOfTime, same, dateOfTime]
    rw [formatDay, dates, formatDay]

/-- Days are ordered as text like their numbers, as long as their years
have four digits. -/
theorem formatDay_lt_iff {first second : Time}
    (inRange : FourDigitYear first) (alsoInRange : FourDigitYear second) :
    formatDay first < formatDay second ↔
      dayNumber first < dayNumber second := by
  have dates := date_append_lt_iff inRange alsoInRange [] []
  rw [List.append_nil, List.append_nil, date_lt_iff_days] at dates
  rw [String.lt_iff, formatDay, formatDay, String.toList_ofList,
    String.toList_ofList, dates]
  simp [secondOf, dayNumber]

/-- The month of a day's text is the month of its instants. -/
theorem monthOf_formatDay
    {time : Time} (lower : 0 ≤ (dateOfTime time).year)
    (upper : (dateOfTime time).year < 10000) :
    monthOf (formatDay time) = formatMonth time := by
  have fourDigits : (dateOfTime time).year.natAbs < 10000 := by omega
  have notNegative : ¬ (dateOfTime time).year < 0 := by omega
  have text : (formatDay time).toList =
      (fixedDigits 4 (dateOfTime time).year.natAbs ++
        '-' :: fixedDigits 2 (dateOfTime time).month) ++
          '-' :: fixedDigits 2 (dateOfTime time).day := by
    rw [formatDay, String.toList_ofList, yearText, if_neg notNegative,
      if_pos fourDigits, List.append_assoc, List.cons_append]
  have seven : (fixedDigits 4 (dateOfTime time).year.natAbs ++
      '-' :: fixedDigits 2 (dateOfTime time).month).length = 7 := by
    simp
  rw [monthOf, text, List.take_left' seven, formatMonth, yearText,
    if_neg notNegative, if_pos fourDigits]

end Xoxproxy
