import Mathlib.Data.List.DropRight
import Mathlib.Tactic.Ring
import Xoxproxy.Library.CivilCalendar
import Xoxproxy.Store.Records

/-!
# Timestamps in the database

Timestamps are stored as RFC 3339 text in UTC with as many fractional
digits as needed (`internal/store/sqlite/sqlite.go`).  What is written is
read back as the same instant, or not at all.
-/

namespace Xoxproxy

open CivilCalendar

/-- The last `width` decimal digits of a number. -/
def fixedDigits : Nat → Nat → List Char
  | 0, _ => []
  | width + 1, value =>
      Nat.digitChar (value / 10 ^ width % 10) :: fixedDigits width value

/-- Read `width` digits behind the number read so far. -/
def readDigits : Nat → Nat → List Char → Option (Nat × List Char)
  | 0, value, text => some (value, text)
  | _ + 1, _, [] => none
  | width + 1, value, char :: text =>
      if char.isDigit then
        readDigits width (10 * value + (char.toNat - '0'.toNat)) text
      else none

theorem digitChar_isDigit
    {digit : Nat} (small : digit < 10) :
    (Nat.digitChar digit).isDigit = true ∧
      (Nat.digitChar digit).toNat - '0'.toNat = digit := by
  have all : ∀ digit < 10, (Nat.digitChar digit).isDigit = true ∧
      (Nat.digitChar digit).toNat - '0'.toNat = digit := by
    decide
  exact all digit small

theorem fixedDigits_isDigit (width value : Nat) :
    ∀ char ∈ fixedDigits width value, char.isDigit = true := by
  induction width with
  | zero => simp [fixedDigits]
  | succ width induction =>
      intro char member
      rcases List.mem_cons.mp member with rfl | later
      · exact (digitChar_isDigit (Nat.mod_lt _ (by decide))).1
      · exact induction char later

@[simp]
theorem length_fixedDigits (width value : Nat) :
    (fixedDigits width value).length = width := by
  induction width with
  | zero => rfl
  | succ width induction => simp [fixedDigits, induction]

/-- What was written with a fixed width is read back. -/
theorem readDigits_fixedDigits
    (width value before : Nat) (rest : List Char) :
    readDigits width before (fixedDigits width value ++ rest) =
      some (before * 10 ^ width + value % 10 ^ width, rest) := by
  induction width generalizing before with
  | zero => simp [readDigits, fixedDigits, Nat.mod_one]
  | succ width induction =>
      obtain ⟨isDigit, digit⟩ := digitChar_isDigit
        (Nat.mod_lt (value / 10 ^ width) (by decide : 0 < 10))
      have split := Nat.mod_pow_succ (b := 10) (k := width) (x := value)
      simp only [fixedDigits, List.cons_append, readDigits, isDigit,
        if_true, digit]
      rw [induction, split]
      congr 2
      ring

theorem readDigits_small
    {width value : Nat} (small : value < 10 ^ width)
    (rest : List Char) :
    readDigits width 0 (fixedDigits width value ++ rest) =
      some (value, rest) := by
  rw [readDigits_fixedDigits, Nat.mod_eq_of_lt small]
  simp

/-- `appendNano` with trailing zeros removed. -/
def fractionText (nanos : Nat) : List Char :=
  if nanos = 0 then []
  else '.' :: (fixedDigits 9 nanos).rdropWhile (· = '0')

/-- An optional fraction of a second, in nanoseconds, and the rest. -/
def readFraction : List Char → Option (Nat × List Char)
  | '.' :: text =>
      let digits := text.takeWhile Char.isDigit
      if digits = [] then none
      else do
        let (nanos, _) ← readDigits 9 0
          (digits.take 9 ++ List.replicate (9 - digits.length) '0')
        pure (nanos, text.dropWhile Char.isDigit)
  | text => some (0, text)

/-- The removed zeros come back as padding. -/
theorem rdropWhile_padded
    {char : Char} {width : Nat} {text : List Char}
    (length : text.length = width) :
    text.rdropWhile (· = char) ++
        List.replicate (width - (text.rdropWhile (· = char)).length) char =
      text := by
  have parts :=
    @List.rdropWhile_append_rtakeWhile _ (· = char) text
  have zeros : ∀ other ∈ text.rtakeWhile (· = char), other = char := by
    intro other member
    simpa using List.mem_rtakeWhile_imp member
  have tail := List.eq_replicate_of_mem zeros
  have sizes := congrArg List.length parts
  rw [List.length_append, length] at sizes
  have tailLength :
      (text.rtakeWhile (· = char)).length =
        width - (text.rdropWhile (· = char)).length := by
    omega
  rw [tailLength] at tail
  rw [← tail]
  exact parts

theorem fraction_nonempty
    {nanos : Nat} (small : nanos < 10 ^ 9) (positive : nanos ≠ 0) :
    (fixedDigits 9 nanos).rdropWhile (· = '0') ≠ [] := by
  intro empty
  have padded := @rdropWhile_padded '0' 9 _
    (length_fixedDigits 9 nanos)
  rw [empty] at padded
  have read := readDigits_small small []
  rw [List.append_nil, ← padded] at read
  have zero : readDigits 9 0
      ([] ++ List.replicate (9 - ([] : List Char).length) '0') =
        some (0, []) := by
    decide
  rw [zero] at read
  have pairs := Option.some.inj read
  exact positive (congrArg Prod.fst pairs).symm

/-- A fraction is read back, up to the zone. -/
theorem readFraction_fractionText
    {nanos : Nat} (small : nanos < 10 ^ 9) :
    readFraction (fractionText nanos ++ ['Z']) = some (nanos, ['Z']) := by
  unfold fractionText
  split
  · rename_i zero
    subst zero
    rfl
  · rename_i positive
    have nonempty := fraction_nonempty small positive
    have padded := @rdropWhile_padded '0' 9 _
      (length_fixedDigits 9 nanos)
    generalize shown :
      (fixedDigits 9 nanos).rdropWhile (· = '0') = digits
      at nonempty padded
    have areDigits : ∀ char ∈ digits, char.isDigit = true := by
      intro char member
      rw [← shown] at member
      exact fixedDigits_isDigit 9 nanos char
        ((List.rdropWhile_prefix _ _).subset member)
    have short : digits.length ≤ 9 := by
      have whole := congrArg List.length padded
      rw [List.length_append, length_fixedDigits] at whole
      omega
    have taken :
        (digits ++ ['Z']).takeWhile Char.isDigit = digits := by
      rw [List.takeWhile_append_of_pos areDigits]
      simp
    have dropped :
        (digits ++ ['Z']).dropWhile Char.isDigit = ['Z'] := by
      rw [List.dropWhile_append_of_pos areDigits]
      rfl
    have read := readDigits_small small []
    rw [List.append_nil] at read
    simp only [List.cons_append, readFraction, taken, dropped, nonempty,
      if_false, List.take_of_length_le short, padded, read]
    rfl

/-- The day on which Unix time starts. -/
def unixDay : Int := firstDay 1970

/-- A year with at least four digits. -/
def yearText (year : Int) : List Char :=
  let digits :=
    if year.natAbs < 10000 then fixedDigits 4 year.natAbs
    else Nat.toDigits 10 year.natAbs
  if year < 0 then '-' :: digits else digits

/-- The UTC date of an instant. -/
def dateOfTime (time : Time) : Date :=
  dateOf (time / 1000000000 / 86400 + unixDay)

def clockText (second : Nat) : List Char :=
  fixedDigits 2 (second / 3600) ++
    ':' :: (fixedDigits 2 (second / 60 % 60) ++
      ':' :: fixedDigits 2 (second % 60))

/-- `formatTime`. -/
def formatTime (time : Time) : String :=
  let date := dateOfTime time
  String.ofList
    (yearText date.year ++
      '-' :: (fixedDigits 2 date.month ++
        '-' :: (fixedDigits 2 date.day ++
          'T' :: (clockText (time / 1000000000 % 86400).toNat ++
            (fractionText (time % 1000000000).toNat ++ ['Z'])))))

/-- The rest behind an expected character. -/
def expect (char : Char) : List Char → Option (List Char)
  | [] => none
  | first :: rest => if first = char then some rest else none

@[simp]
theorem expect_self (char : Char) (rest : List Char) :
    expect char (char :: rest) = some rest := by
  simp [expect]

/-- A zone and nothing behind it, in seconds east of Greenwich. -/
def readZone : List Char → Option Int
  | ['Z'] => some 0
  | sign :: text => do
      let (hours, text) ← readDigits 2 0 text
      let text ← expect ':' text
      let (minutes, text) ← readDigits 2 0 text
      if text ≠ [] ∨ hours > 24 ∨ minutes > 60 then none
      else if sign = '+' then some (hours * 3600 + minutes * 60)
      else if sign = '-' then some (-(hours * 3600 + minutes * 60))
      else none
  | [] => none

def dateExists (date : Date) : Bool :=
  match (monthLengths (isLeap date.year))[date.month - 1]? with
  | some length =>
      decide (1 ≤ date.month ∧ 1 ≤ date.day ∧ date.day ≤ length)
  | none => false

def readClock (text : List Char) : Option (Nat × List Char) := do
  let (hour, text) ← readDigits 2 0 text
  let text ← expect ':' text
  let (minute, text) ← readDigits 2 0 text
  let text ← expect ':' text
  let (second, text) ← readDigits 2 0 text
  if hour < 24 ∧ minute < 60 ∧ second < 60 then
    some (hour * 3600 + minute * 60 + second, text)
  else none

/-- `time.Parse(time.RFC3339Nano, text)`.  One-digit hours and decimal
commas, which Go tolerates, are not read. -/
def readTime (text : List Char) : Option Time := do
  let (year, text) ← readDigits 4 0 text
  let text ← expect '-' text
  let (month, text) ← readDigits 2 0 text
  let text ← expect '-' text
  let (day, text) ← readDigits 2 0 text
  let text ← expect 'T' text
  let (second, text) ← readClock text
  let (nanos, text) ← readFraction text
  let offset ← readZone text
  let date : Date := ⟨year, month, day⟩
  if dateExists date then
    some (((dayOf date - unixDay) * 86400 + second - offset) *
      1000000000 + nanos)
  else none

section Parsing

variable [Build]

/-- `parseTime`; the text of the `time` package's own error is left
out. -/
def parseTime (text : String) : Except GoError Time :=
  match readTime text.toList with
  | some time => .ok time
  | none =>
      .error (.plain ("sqlite: parse timestamp " ++ quote text))

/-- `formatNullTime`. -/
def formatNullTime (time : Option Time) : Option String :=
  time.map formatTime

/-- `parseNullTime`. -/
def parseNullTime : Option String → Except GoError (Option Time)
  | none => .ok none
  | some text =>
      if text = "" then .ok none
      else (parseTime text).map some

end Parsing

/-! ## Round trips -/

theorem readClock_clockText
    {second : Nat} (inDay : second < 86400) (rest : List Char) :
    readClock (clockText second ++ rest) = some (second, rest) := by
  have hours : second / 3600 < 10 ^ 2 := by omega
  have minutes : second / 60 % 60 < 10 ^ 2 := by omega
  have seconds : second % 60 < 10 ^ 2 := by omega
  have ranges :
      second / 3600 < 24 ∧ second / 60 % 60 < 60 ∧ second % 60 < 60 := by
    omega
  have total :
      second / 3600 * 3600 + second / 60 % 60 * 60 + second % 60 =
        second := by
    omega
  simp only [readClock, clockText, List.append_assoc, List.cons_append,
    readDigits_small hours, readDigits_small minutes,
    readDigits_small seconds, expect_self, Option.bind_eq_bind,
    Option.bind_some, if_pos ranges, total]

theorem dateExists_of_valid {date : Date} (valid : date.Valid) :
    dateExists date = true := by
  obtain ⟨length, found, month, day, upper⟩ := valid
  simp [dateExists, found, month, day, upper]

theorem dateOfTime_valid (time : Time) : (dateOfTime time).Valid :=
  dateOf_valid _

theorem parts_of_time (time start : Int) :
    ((time / 1000000000 / 86400 + start - start) * 86400 +
      ((time / 1000000000 % 86400).toNat : Int) - 0) * 1000000000 +
        ((time % 1000000000).toNat : Int) = time := by
  omega

/-- An instant in the years 0 to 9999 is read back as it was written. -/
theorem readTime_formatTime
    {time : Time} (lower : 0 ≤ (dateOfTime time).year)
    (upper : (dateOfTime time).year < 10000) :
    readTime (formatTime time).toList = some time := by
  have inDay : (time / 1000000000 % 86400).toNat < 86400 := by omega
  have nanos : (time % 1000000000).toNat < 10 ^ 9 := by omega
  have bounds : (dateOfTime time).month < 10 ^ 2 ∧
      (dateOfTime time).day < 10 ^ 2 :=
    (dateOfTime_valid time).bounds
  have year : (dateOfTime time).year.natAbs < 10 ^ 4 := by omega
  have fourDigits : (dateOfTime time).year.natAbs < 10000 := year
  have notNegative : ¬ (dateOfTime time).year < 0 := by omega
  have sameYear : ((dateOfTime time).year.natAbs : Int) =
      (dateOfTime time).year := by
    omega
  have day : dayOf (dateOfTime time) =
      time / 1000000000 / 86400 + unixDay :=
    dayOf_dateOf _
  have dated := dateExists_of_valid (dateOfTime_valid time)
  rw [formatTime, String.toList_ofList, yearText, if_neg notNegative,
    if_pos fourDigits, readTime]
  simp only [readDigits_small year, expect_self,
    readDigits_small bounds.1, readDigits_small bounds.2,
    readClock_clockText inDay, readFraction_fractionText nanos, readZone,
    Option.bind_eq_bind, Option.bind_some, sameYear, dated, day,
    if_true, Option.some.injEq]
  exact parts_of_time time unixDay

/-- Reading fewer digits than there are leaves a digit in front. -/
theorem readDigits_of_longer
    {width before : Nat} {digits : List Char} (rest : List Char)
    (areDigits : ∀ char ∈ digits, char.isDigit = true)
    (longer : width < digits.length) :
    ∃ value char remaining, char.isDigit = true ∧
      readDigits width before (digits ++ rest) =
        some (value, char :: remaining) := by
  induction width generalizing before digits with
  | zero =>
      cases digits with
      | nil => simp at longer
      | cons char remaining =>
          exact ⟨before, char, remaining ++ rest,
            areDigits char (by simp), rfl⟩
  | succ width induction =>
      cases digits with
      | nil => simp at longer
      | cons char remaining =>
          have isDigit := areDigits char (by simp)
          have later : ∀ other ∈ remaining, other.isDigit = true :=
            fun other member => areDigits other (by simp [member])
          have shorter : width < remaining.length := by
            simpa using longer
          obtain ⟨value, next, behind, nextDigit, read⟩ :=
            induction later shorter
          exact ⟨value, next, behind, nextDigit,
            by simpa [readDigits, isDigit] using read⟩

/-- A year is four digits and a hyphen. -/
theorem readTime_eq_none
    {text : List Char}
    (noYear :
      (readDigits 4 0 text).bind (fun found => expect '-' found.2) =
        none) :
    readTime text = none := by
  unfold readTime
  cases read : readDigits 4 0 text with
  | none => rfl
  | some found =>
      have unexpected : expect '-' found.2 = none := by
        rw [read] at noYear
        exact noYear
      simp only [Option.bind_eq_bind, Option.bind_some, unexpected,
        Option.bind_none]

/-- A year of more than four digits, or before the year zero, is not read
back. -/
theorem readTime_formatTime_eq_none
    {time : Time}
    (outside :
      ¬ (0 ≤ (dateOfTime time).year ∧ (dateOfTime time).year < 10000)) :
    readTime (formatTime time).toList = none := by
  apply readTime_eq_none
  simp only [formatTime, String.toList_ofList]
  generalize '-' :: _ = behind
  by_cases negative : (dateOfTime time).year < 0
  · have sign : ('-' : Char).isDigit = false := by decide
    simp [yearText, negative, readDigits, sign]
  · have large : ¬ (dateOfTime time).year.natAbs < 10000 := by omega
    have areDigits :
        ∀ char ∈ Nat.toDigits 10 (dateOfTime time).year.natAbs,
          char.isDigit = true := by
      intro char member
      exact Nat.isDigit_of_mem_toDigits (by decide) (by decide) member
    have longer :
        4 < (Nat.toDigits 10 (dateOfTime time).year.natAbs).length := by
      apply Nat.lt_of_not_le
      intro short
      exact large ((Nat.length_toDigits_le_iff (by decide)
        (by decide)).mp short)
    obtain ⟨value, char, remaining, isDigit, read⟩ :=
      @readDigits_of_longer 4 0 _ behind areDigits longer
    have different : char ≠ '-' := by
      intro same
      rw [same] at isDigit
      exact absurd isDigit (by decide)
    rw [yearText, if_neg negative, if_neg large, read]
    simp [expect, different]

/-- What is read back of a written instant is that instant. -/
theorem eq_of_readTime_formatTime
    {time read : Time}
    (found : readTime (formatTime time).toList = some read) :
    read = time := by
  by_cases inside :
      0 ≤ (dateOfTime time).year ∧ (dateOfTime time).year < 10000
  · rw [readTime_formatTime inside.1 inside.2] at found
    exact (Option.some.inj found).symm
  · rw [readTime_formatTime_eq_none inside] at found
    cases found

end Xoxproxy
