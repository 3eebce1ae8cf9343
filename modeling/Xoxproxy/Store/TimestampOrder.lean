import Xoxproxy.Library.TextOrder
import Xoxproxy.Store.Timestamps

/-!
# The order of stored timestamps

SQL compares timestamps as text.  Texts of different seconds are ordered
as the instants are.  Within a second the zone letter takes part in the
comparison where one fraction is the beginning of the other, and it is
greater than a digit and than the decimal point.
-/

namespace Xoxproxy

open CivilCalendar TextOrder

theorem digitChar_lt_iff
    {first second : Nat} (small : first < 10) (alsoSmall : second < 10) :
    Nat.digitChar first < Nat.digitChar second ↔ first < second := by
  have all : ∀ first < 10, ∀ second < 10,
      (Nat.digitChar first < Nat.digitChar second ↔ first < second) := by
    decide
  exact all first small second alsoSmall

theorem digitChar_inj
    {first second : Nat} (small : first < 10) (alsoSmall : second < 10) :
    Nat.digitChar first = Nat.digitChar second ↔ first = second := by
  have all : ∀ first < 10, ∀ second < 10,
      (Nat.digitChar first = Nat.digitChar second ↔ first = second) := by
    decide
  exact all first small second alsoSmall

theorem fixedDigits_inj
    {width first second : Nat} (small : first < 10 ^ width)
    (alsoSmall : second < 10 ^ width) :
    fixedDigits width first = fixedDigits width second ↔
      first = second := by
  constructor
  · intro same
    have read := readDigits_small small []
    rw [same, readDigits_small alsoSmall] at read
    exact (congrArg Prod.fst (Option.some.inj read)).symm
  · intro same
    rw [same]

/-- Digits of a fixed width are ordered as the numbers are. -/
theorem fixedDigits_lt_iff (width first second : Nat) :
    fixedDigits width first < fixedDigits width second ↔
      first % 10 ^ width < second % 10 ^ width := by
  induction width with
  | zero => simp [fixedDigits, Nat.mod_one]
  | succ width induction =>
      have positive : 0 < 10 ^ width := by positivity
      have firstDigit := Nat.mod_lt (first / 10 ^ width)
        (by decide : 0 < 10)
      have secondDigit := Nat.mod_lt (second / 10 ^ width)
        (by decide : 0 < 10)
      have firstRest := Nat.mod_lt first positive
      have secondRest := Nat.mod_lt second positive
      simp only [fixedDigits, List.cons_lt_cons_iff, induction,
        digitChar_lt_iff firstDigit secondDigit,
        digitChar_inj firstDigit secondDigit,
        Nat.mod_pow_succ]
      generalize first / 10 ^ width % 10 = high at *
      generalize second / 10 ^ width % 10 = otherHigh at *
      generalize first % 10 ^ width = low at *
      generalize second % 10 ^ width = otherLow at *
      generalize 10 ^ width = scale at *
      constructor
      · intro ordered
        rcases ordered with less | ⟨same, less⟩
        · nlinarith
        · rw [same]
          omega
      · intro ordered
        by_cases same : high = otherHigh
        · subst same
          exact Or.inr ⟨rfl, by omega⟩
        · by_cases less : high < otherHigh
          · exact Or.inl less
          · have greater : otherHigh + 1 ≤ high := by omega
            nlinarith

/-- Numbers of a fixed width in front decide first. -/
theorem fixedDigits_append_lt_iff
    {width first second : Nat} (small : first < 10 ^ width)
    (alsoSmall : second < 10 ^ width) (left right : List Char) :
    fixedDigits width first ++ left < fixedDigits width second ++ right ↔
      first < second ∨ first = second ∧ left < right := by
  have sameLength : (fixedDigits width first).length =
      (fixedDigits width second).length := by
    simp
  rw [append_lt_append_iff sameLength, fixedDigits_lt_iff,
    fixedDigits_inj small alsoSmall, Nat.mod_eq_of_lt small,
    Nat.mod_eq_of_lt alsoSmall]

theorem char_cons_lt_iff (char : Char) (left right : List Char) :
    char :: left < char :: right ↔ left < right :=
  cons_lt_cons_self_iff (Char.lt_irrefl char)

/-- The digits behind the decimal point. -/
def fractionDigits (nanos : Nat) : List Char :=
  (fixedDigits 9 nanos).rdropWhile (· = '0')

/-- The end of a timestamp: the fraction, if there is one, and the
zone. -/
def timeTail (nanos : Nat) : List Char := fractionText nanos ++ ['Z']

theorem fractionDigits_padded (nanos : Nat) :
    fractionDigits nanos ++
        List.replicate (9 - (fractionDigits nanos).length) '0' =
      fixedDigits 9 nanos :=
  rdropWhile_padded (length_fixedDigits 9 nanos)

theorem fractionDigits_isDigit (nanos : Nat) :
    ∀ char ∈ fractionDigits nanos, char.isDigit = true := by
  intro char member
  exact fixedDigits_isDigit 9 nanos char
    ((List.rdropWhile_prefix _ _).subset member)

theorem timeTail_zero : timeTail 0 = ['Z'] := rfl

theorem timeTail_positive {nanos : Nat} (positive : nanos ≠ 0) :
    timeTail nanos = '.' :: (fractionDigits nanos ++ ['Z']) := by
  simp [timeTail, fractionText, positive, fractionDigits]

theorem fractionDigits_eq_nil_iff
    {nanos : Nat} (small : nanos < 10 ^ 9) :
    fractionDigits nanos = [] ↔ nanos = 0 := by
  constructor
  · intro empty
    by_cases zero : nanos = 0
    · exact zero
    · exact absurd empty (fraction_nonempty small zero)
  · intro zero
    subst zero
    decide

theorem isDigit_lt_zone {char : Char} (isDigit : char.isDigit = true) :
    char < 'Z' := by
  simp only [Char.isDigit, Bool.and_eq_true, decide_eq_true_eq] at isDigit
  exact Nat.lt_of_le_of_lt isDigit.2 (by decide)

theorem not_isDigit_lt_zero
    {char : Char} (isDigit : char.isDigit = true) : ¬ char < '0' := by
  simp only [Char.isDigit, Bool.and_eq_true, decide_eq_true_eq] at isDigit
  exact Nat.not_lt.mpr isDigit.1

/-- Nothing of the same length is below zeros. -/
theorem not_lt_replicate_zero
    {digits : List Char} (areDigits : ∀ char ∈ digits, char.isDigit = true)
    (count : Nat) (same : digits.length = count) :
    ¬ digits < List.replicate count '0' := by
  induction digits generalizing count with
  | nil =>
      subst same
      simp
  | cons char rest induction =>
      subst same
      have head := not_isDigit_lt_zero (areDigits char (by simp))
      have later := induction
        (fun other member => areDigits other (by simp [member]))
        rest.length rfl
      rw [List.length_cons, List.replicate_succ, List.cons_lt_cons_iff]
      intro ordered
      rcases ordered with less | ⟨_, less⟩
      · exact head less
      · exact later less

/-- Where the digits of one fraction begin those of another, the texts are
in the wrong order. -/
theorem timeTail_lt_of_prefix
    {first second : Nat} (small : first < 10 ^ 9)
    (alsoSmall : second < 10 ^ 9) (different : first ≠ second)
    (inside : fractionDigits first <+: fractionDigits second) :
    first < second ∧ timeTail second < timeTail first := by
  obtain ⟨behind, shape⟩ := inside
  have firstPadded := fractionDigits_padded first
  have secondPadded := fractionDigits_padded second
  have apart : behind ≠ [] := by
    intro empty
    rw [empty, List.append_nil] at shape
    rw [← shape, firstPadded] at secondPadded
    exact different ((fixedDigits_inj small alsoSmall).mp secondPadded)
  obtain ⟨char, rest, split⟩ := List.exists_cons_of_ne_nil apart
  have isDigit : char.isDigit = true := by
    apply fractionDigits_isDigit second
    rw [← shape, split]
    simp
  constructor
  · have firstLength := congrArg List.length firstPadded
    have secondLength := congrArg List.length secondPadded
    rw [← shape] at secondPadded secondLength
    simp only [List.length_append, List.length_replicate,
      length_fixedDigits] at firstLength secondLength
    have notLess :
        ¬ fixedDigits 9 second < fixedDigits 9 first := by
      rw [← firstPadded, ← secondPadded, List.append_assoc,
        append_lt_append_iff rfl]
      intro ordered
      rcases ordered with less | ⟨_, less⟩
      · exact List.lt_irrefl _ less
      · refine not_lt_replicate_zero ?_ _ ?_ less
        · intro other member
          rcases List.mem_append.mp member with digit | padding
          · apply fractionDigits_isDigit second
            rw [← shape]
            exact List.mem_append_right _ digit
          · rw [List.eq_of_mem_replicate padding]
            decide
        · simp only [List.length_append, List.length_replicate]
          omega
    rw [fixedDigits_lt_iff, Nat.mod_eq_of_lt small,
      Nat.mod_eq_of_lt alsoSmall] at notLess
    omega
  · by_cases zero : first = 0
    · subst zero
      have positive : second ≠ 0 := different.symm
      rw [timeTail_zero, timeTail_positive positive,
        List.cons_lt_cons_iff]
      exact Or.inl (by decide)
    · have positive : second ≠ 0 := by
        intro none
        have empty := (fractionDigits_eq_nil_iff alsoSmall).mpr none
        rw [← shape, List.append_eq_nil_iff] at empty
        exact apart empty.2
      rw [timeTail_positive zero, timeTail_positive positive,
        char_cons_lt_iff, ← shape, List.append_assoc, split]
      apply List.append_left_lt
      rw [List.cons_append, List.cons_lt_cons_iff]
      exact Or.inl (isDigit_lt_zone isDigit)

/-- Where neither begins the other, they are in the right order. -/
theorem timeTail_lt_iff_of_diverging
    {first second : Nat} (small : first < 10 ^ 9)
    (alsoSmall : second < 10 ^ 9)
    (apart : ¬ fractionDigits first <+: fractionDigits second)
    (alsoApart : ¬ fractionDigits second <+: fractionDigits first) :
    timeTail first < timeTail second ↔ first < second := by
  have positive : first ≠ 0 := by
    intro zero
    rw [(fractionDigits_eq_nil_iff small).mpr zero] at apart
    exact apart List.nil_prefix
  have alsoPositive : second ≠ 0 := by
    intro zero
    rw [(fractionDigits_eq_nil_iff alsoSmall).mpr zero] at alsoApart
    exact alsoApart List.nil_prefix
  have padded : fixedDigits 9 first < fixedDigits 9 second ↔
      first < second := by
    rw [fixedDigits_lt_iff, Nat.mod_eq_of_lt small,
      Nat.mod_eq_of_lt alsoSmall]
  rw [timeTail_positive positive, timeTail_positive alsoPositive,
    char_cons_lt_iff, ← padded, ← fractionDigits_padded first,
    ← fractionDigits_padded second]
  exact append_lt_append_iff_of_diverging apart alsoApart _ _ _ _

/-! ## Timestamps -/

/-- The second in which an instant lies. -/
def secondOf (time : Time) : Int := time / 1000000000

/-- The nanoseconds of an instant within its second. -/
def nanosOf (time : Time) : Nat := (time % 1000000000).toNat

theorem nanosOf_lt (time : Time) : nanosOf time < 10 ^ 9 := by
  unfold nanosOf
  omega

theorem time_lt_iff (first second : Int) :
    first < second ↔
      secondOf first < secondOf second ∨
        secondOf first = secondOf second ∧
          nanosOf first < nanosOf second := by
  unfold secondOf nanosOf
  omega

theorem time_eq_iff (first second : Int) :
    first = second ↔
      secondOf first = secondOf second ∧
        nanosOf first = nanosOf second := by
  unfold secondOf nanosOf
  omega

/-- Both instants lie in one second, and the fraction digits of one begin
those of the other; a whole second has none. -/
structure Clash (first second : Time) : Prop where
  different : first ≠ second
  sameSecond : secondOf first = secondOf second
  inside :
    fractionDigits (nanosOf first) <+: fractionDigits (nanosOf second) ∨
      fractionDigits (nanosOf second) <+: fractionDigits (nanosOf first)

/-- The years that the layout can write. -/
def FourDigitYear (time : Time) : Prop :=
  0 ≤ (dateOfTime time).year ∧ (dateOfTime time).year < 10000

theorem clockText_append_lt_iff
    {first second : Nat} (inDay : first < 86400)
    (alsoInDay : second < 86400) (left right : List Char) :
    clockText first ++ left < clockText second ++ right ↔
      first < second ∨ first = second ∧ left < right := by
  have hours : first / 3600 < 10 ^ 2 := by omega
  have minutes : first / 60 % 60 < 10 ^ 2 := by omega
  have seconds : first % 60 < 10 ^ 2 := by omega
  have otherHours : second / 3600 < 10 ^ 2 := by omega
  have otherMinutes : second / 60 % 60 < 10 ^ 2 := by omega
  have otherSeconds : second % 60 < 10 ^ 2 := by omega
  simp only [clockText, List.append_assoc, List.cons_append,
    fixedDigits_append_lt_iff hours otherHours,
    fixedDigits_append_lt_iff minutes otherMinutes,
    fixedDigits_append_lt_iff seconds otherSeconds, char_cons_lt_iff]
  by_cases behind : left < right
  · simp only [behind, and_true]
    omega
  · simp only [behind, and_false, or_false]
    omega

/-- The order of dates is that of the days since the epoch. -/
theorem date_lt_iff_days
    {first second : Time} {behind : Prop} :
    (dateOfTime first).Before (dateOfTime second) ∨
        dateOfTime first = dateOfTime second ∧ behind ↔
      secondOf first / 86400 < secondOf second / 86400 ∨
        secondOf first / 86400 = secondOf second / 86400 ∧ behind := by
  have ordered := dayOf_lt_iff (dateOfTime_valid first)
    (dateOfTime_valid second)
  have day : dayOf (dateOfTime first) =
      secondOf first / 86400 + unixDay :=
    dayOf_dateOf _
  have otherDay : dayOf (dateOfTime second) =
      secondOf second / 86400 + unixDay :=
    dayOf_dateOf _
  have same : dateOfTime first = dateOfTime second ↔
      secondOf first / 86400 = secondOf second / 86400 := by
    constructor
    · intro equal
      rw [equal] at day
      omega
    · intro equal
      change dateOf (secondOf first / 86400 + unixDay) =
        dateOf (secondOf second / 86400 + unixDay)
      rw [equal]
  rw [← ordered, same, day, otherDay]
  by_cases holds : behind
  · simp only [holds, and_true]
    omega
  · simp only [holds, and_false, or_false]
    omega

/-- The second of the day. -/
def clockOf (time : Time) : Nat := (secondOf time % 86400).toNat

theorem clockOf_lt (time : Time) : clockOf time < 86400 := by
  unfold clockOf
  omega

theorem toList_formatTime (time : Time) :
    (formatTime time).toList =
      yearText (dateOfTime time).year ++
        '-' :: (fixedDigits 2 (dateOfTime time).month ++
          '-' :: (fixedDigits 2 (dateOfTime time).day ++
            'T' :: (clockText (clockOf time) ++
              timeTail (nanosOf time)))) :=
  String.toList_ofList

theorem yearText_of_fourDigits
    {time : Time} (inRange : FourDigitYear time) :
    yearText (dateOfTime time).year =
      fixedDigits 4 (dateOfTime time).year.natAbs := by
  obtain ⟨lower, upper⟩ := inRange
  have notNegative : ¬ (dateOfTime time).year < 0 := by omega
  have fourDigits : (dateOfTime time).year.natAbs < 10000 := by omega
  rw [yearText, if_neg notNegative, if_pos fourDigits]

theorem before_or_same_iff
    {year sameYear month sameMonth day sameDay rest : Prop} :
    year ∨ sameYear ∧ (month ∨ sameMonth ∧ (day ∨ sameDay ∧ rest)) ↔
      (year ∨ sameYear ∧ (month ∨ sameMonth ∧ day)) ∨
        (sameYear ∧ sameMonth ∧ sameDay) ∧ rest := by
  tauto

/-- A date in front decides first. -/
theorem date_append_lt_iff
    {first second : Time} (inRange : FourDigitYear first)
    (alsoInRange : FourDigitYear second) (left right : List Char) :
    yearText (dateOfTime first).year ++
        '-' :: (fixedDigits 2 (dateOfTime first).month ++
          '-' :: (fixedDigits 2 (dateOfTime first).day ++ left)) <
      yearText (dateOfTime second).year ++
        '-' :: (fixedDigits 2 (dateOfTime second).month ++
          '-' :: (fixedDigits 2 (dateOfTime second).day ++ right)) ↔
      (dateOfTime first).Before (dateOfTime second) ∨
        dateOfTime first = dateOfTime second ∧ left < right := by
  have month : (dateOfTime first).month < 10 ^ 2 :=
    (dateOfTime_valid first).bounds.1
  have day : (dateOfTime first).day < 10 ^ 2 :=
    (dateOfTime_valid first).bounds.2
  have otherMonth : (dateOfTime second).month < 10 ^ 2 :=
    (dateOfTime_valid second).bounds.1
  have otherDay : (dateOfTime second).day < 10 ^ 2 :=
    (dateOfTime_valid second).bounds.2
  have year : (dateOfTime first).year.natAbs < 10 ^ 4 := by
    have bounds := inRange
    unfold FourDigitYear at bounds
    omega
  have otherYear : (dateOfTime second).year.natAbs < 10 ^ 4 := by
    have bounds := alsoInRange
    unfold FourDigitYear at bounds
    omega
  rw [yearText_of_fourDigits inRange, yearText_of_fourDigits alsoInRange,
    fixedDigits_append_lt_iff year otherYear, char_cons_lt_iff,
    fixedDigits_append_lt_iff month otherMonth, char_cons_lt_iff,
    fixedDigits_append_lt_iff day otherDay, Date.ext_iff, Date.Before]
  obtain ⟨lower, _⟩ := inRange
  obtain ⟨otherLower, _⟩ := alsoInRange
  have sameYear : (dateOfTime first).year.natAbs =
      (dateOfTime second).year.natAbs ↔
        (dateOfTime first).year = (dateOfTime second).year := by
    omega
  have earlier : (dateOfTime first).year.natAbs <
      (dateOfTime second).year.natAbs ↔
        (dateOfTime first).year < (dateOfTime second).year := by
    omega
  rw [sameYear, earlier]
  exact before_or_same_iff

/-- Timestamps are ordered by their dates first. -/
theorem formatTime_lt_iff_dates
    {first second : Time} (inRange : FourDigitYear first)
    (alsoInRange : FourDigitYear second) :
    formatTime first < formatTime second ↔
      (dateOfTime first).Before (dateOfTime second) ∨
        dateOfTime first = dateOfTime second ∧
          (clockOf first < clockOf second ∨
            clockOf first = clockOf second ∧
              timeTail (nanosOf first) < timeTail (nanosOf second)) := by
  rw [String.lt_iff, toList_formatTime, toList_formatTime,
    date_append_lt_iff inRange alsoInRange, char_cons_lt_iff,
    clockText_append_lt_iff (clockOf_lt first) (clockOf_lt second)]

/-- Timestamps are ordered by their seconds, and then by their tails. -/
theorem formatTime_lt_iff_seconds
    {first second : Time} (inRange : FourDigitYear first)
    (alsoInRange : FourDigitYear second) :
    formatTime first < formatTime second ↔
      secondOf first < secondOf second ∨
        secondOf first = secondOf second ∧
          timeTail (nanosOf first) < timeTail (nanosOf second) := by
  rw [formatTime_lt_iff_dates inRange alsoInRange, date_lt_iff_days]
  unfold clockOf
  by_cases tails : timeTail (nanosOf first) < timeTail (nanosOf second)
  · simp only [tails, and_true]
    omega
  · simp only [tails, and_false, or_false]
    omega

/-- The text order of two timestamps is the order of the instants exactly
where they do not clash. -/
theorem formatTime_lt_iff_of_not_clash
    {first second : Time} (inRange : FourDigitYear first)
    (alsoInRange : FourDigitYear second)
    (apart : ¬ Clash first second) :
    formatTime first < formatTime second ↔ first < second := by
  rw [formatTime_lt_iff_seconds inRange alsoInRange,
    time_lt_iff first second]
  by_cases sameSecond : secondOf first = secondOf second
  · by_cases same : first = second
    · subst same
      simp
    · have outside := fun inside => apart ⟨same, sameSecond, inside⟩
      have outside := not_or.mp outside
      rw [timeTail_lt_iff_of_diverging (nanosOf_lt first)
        (nanosOf_lt second) outside.1 outside.2]
  · simp [sameSecond]

/-- Where they clash, it is the other way round. -/
theorem formatTime_lt_iff_of_clash
    {first second : Time} (inRange : FourDigitYear first)
    (alsoInRange : FourDigitYear second) (clash : Clash first second) :
    formatTime first < formatTime second ↔ second < first := by
  obtain ⟨different, sameSecond, inside⟩ := clash
  have nanos : nanosOf first ≠ nanosOf second := by
    intro same
    exact different ((time_eq_iff first second).mpr ⟨sameSecond, same⟩)
  rw [formatTime_lt_iff_seconds inRange alsoInRange,
    time_lt_iff second first]
  rcases inside with shorter | longer
  · obtain ⟨less, reversed⟩ := timeTail_lt_of_prefix (nanosOf_lt first)
      (nanosOf_lt second) nanos shorter
    have notLess : ¬ timeTail (nanosOf first) <
        timeTail (nanosOf second) :=
      fun ordered => List.lt_asymm ordered reversed
    simp only [notLess, and_false, or_false]
    omega
  · obtain ⟨less, reversed⟩ := timeTail_lt_of_prefix (nanosOf_lt second)
      (nanosOf_lt first) nanos.symm longer
    simp only [reversed, less, and_true]
    omega

end Xoxproxy
