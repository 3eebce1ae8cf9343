import Xoxproxy.Library.DoubleTexts
import Xoxproxy.Store.Days

/-!
# The user form of the dashboard

`UserForm` of `web/src/components/UserForm.tsx`: the state in which it
opens, and the values that it submits.
-/

namespace Xoxproxy.Web

open Binary64 CivilCalendar

/-- What a browser makes of date texts in no standard format, in
milliseconds. -/
class LooseDates where
  parse : List Char → Option Int

/-- A date and a time of day in UTC, without a fraction. -/
def readInstant (text : List Char) : Option Int := do
  let (year, text) ← readDigits 4 0 text
  let text ← expect '-' text
  let (month, text) ← readDigits 2 0 text
  let text ← expect '-' text
  let (day, text) ← readDigits 2 0 text
  let text ← expect 'T' text
  let (second, text) ← readClock text
  let date : Date := ⟨year, month, day⟩
  if text = ['Z'] ∧ dateExists date then
    some (((dayOf date - unixDay) * 86400 + second) * 1000)
  else none

/-- `new Date(text)`; `none` is an invalid date. -/
def newDate [LooseDates] (text : List Char) : Option Int :=
  match readInstant text with
  | some instant => some instant
  | none => LooseDates.parse text

/-- The year of `toISOString`. -/
def isoYear (year : Int) : List Char :=
  if 0 ≤ year ∧ year ≤ 9999 then fixedDigits 4 year.natAbs
  else (if year < 0 then '-' else '+') :: fixedDigits 6 year.natAbs

/-- The date on which a millisecond lies. -/
def dateOfInstant (instant : Int) : Date := dateOfTime (instant * 1000000)

/-- `toISOString`. -/
def toISOString (instant : Int) : List Char :=
  let date := dateOfInstant instant
  isoYear date.year ++
    '-' :: (fixedDigits 2 date.month ++
      '-' :: (fixedDigits 2 date.day ++
        'T' :: (clockText (instant / 1000 % 86400).toNat ++
          '.' :: (fixedDigits 3 (instant % 1000).toNat ++ ['Z']))))

/-- `ProxyUser` of `web/src/api/client.ts`, as far as the form reads it. -/
structure ProxyUser where
  username : String
  allowedProtocols : List String
  downloadLimitBps : Double
  uploadLimitBps : Double
  maxConnections : Double
  quotaBytesDaily : Double
  quotaBytesMonthly : Double
  expiresAt : Option String
  version : Double

/-- The number that `JSON.parse` makes of an integer. -/
def numberOf (value : Int) : Double := round64 value

/-- A user as the dashboard receives it: `toUserResponse`, encoded, and
decoded by the browser. -/
def received (user : Xoxproxy.ProxyUser) : ProxyUser where
  username := user.username
  allowedProtocols := user.allowedProtocols
  downloadLimitBps := numberOf user.downloadBPS
  uploadLimitBps := numberOf user.uploadBPS
  maxConnections := numberOf user.maxConnections
  quotaBytesDaily := numberOf user.quotaBytesDaily
  quotaBytesMonthly := numberOf user.quotaBytesMonthly
  expiresAt := user.expiresAt.map formatTime
  version := numberOf user.version

/-- `UserFormValues`.  The password is left out when it is undefined, and
always in the edit form. -/
structure UserFormValues where
  username : String
  password : Option String
  allowedProtocols : List String
  downloadLimitBps : Double
  uploadLimitBps : Double
  maxConnections : Double
  quotaBytesDaily : Double
  quotaBytesMonthly : Double
  expiresAt : Option String

/-- The state of the form. -/
structure UserForm where
  username : String
  password : String := ""
  protocols : List String
  downMbps : String
  upMbps : String
  maxConn : String
  quotaDailyMB : String
  quotaMonthlyGB : String
  expires : String
  deriving DecidableEq, Repr

/-- Whether a number counts as true. -/
def truthy : Double → Bool
  | .nan => false
  | .infinite _ => true
  | .finite number => number.value ≠ 0

/-- `String(number)`. -/
def stringOf (number : Double) : String := String.ofList number.text

def zero : Double := round64 0

/-- A bandwidth in the unit of its field. -/
def bandwidthText (bandwidth : Double) : String :=
  if truthy bandwidth then stringOf (bandwidth.times (1 / 1000000)) else ""

/-- A quota in the unit of its field, without a fraction. -/
def quotaText (unit : Nat) (quota : Double) : String :=
  if truthy quota then stringOf (quota.times (1 / unit)).toInteger else ""

def connectionsText (connections : Double) : String :=
  if truthy connections then stringOf connections else ""

/-- What a field with a unit stands for. -/
def scaledField (unit : Nat) (text : String) : Double :=
  if text = "" then zero
  else ((parseFloat text.toList).times unit).toInteger

def connectionsField (text : String) : Double :=
  if text = "" then zero else parseInt text.toList

/-- The form as it opens on a user, or on none. -/
def UserForm.opened : Option ProxyUser → UserForm
  | none => {
      username := ""
      protocols := ["http", "socks5"]
      downMbps := ""
      upMbps := ""
      maxConn := ""
      quotaDailyMB := ""
      quotaMonthlyGB := ""
      expires := "" }
  | some user => {
      username := user.username
      protocols := user.allowedProtocols
      downMbps := bandwidthText user.downloadLimitBps
      upMbps := bandwidthText user.uploadLimitBps
      maxConn := connectionsText user.maxConnections
      quotaDailyMB := quotaText 1000000 user.quotaBytesDaily
      quotaMonthlyGB := quotaText 1000000000 user.quotaBytesMonthly
      expires :=
        match user.expiresAt with
        | none => ""
        | some expiresAt => String.ofList (expiresAt.toList.take 10) }

/-- `trim`. -/
def trim (text : String) : String :=
  String.ofList
    ((text.toList.dropWhile isWhite).reverse.dropWhile isWhite).reverse

section Submitting

variable [LooseDates]

/-- The end of the day of the date field; `none` when there is no such
date, and the submission ends with an exception. -/
def expiryField (text : String) : Option (Option String) :=
  if text = "" then some none
  else
    (newDate (text.toList ++ "T23:59:59Z".toList)).map fun instant =>
      some (String.ofList (toISOString instant))

/-- `submit`. -/
def UserForm.submit (user : Option ProxyUser) (form : UserForm) :
    Option UserFormValues :=
  (expiryField form.expires).map fun expiresAt => {
    username := trim form.username
    password :=
      match user with
      | some _ => none
      | none => if form.password = "" then none else some form.password
    allowedProtocols := form.protocols
    downloadLimitBps := scaledField 1000000 form.downMbps
    uploadLimitBps := scaledField 1000000 form.upMbps
    maxConnections := connectionsField form.maxConn
    quotaBytesDaily := scaledField 1000000 form.quotaDailyMB
    quotaBytesMonthly := scaledField 1000000000 form.quotaMonthlyGB
    expiresAt := expiresAt }

end Submitting

theorem readDigits_add (first second value : Nat) (text : List Char) :
    readDigits (first + second) value text =
      (readDigits first value text).bind fun found =>
        readDigits second found.1 found.2 := by
  induction first generalizing value text with
  | zero => simp [readDigits]
  | succ first induction =>
      rw [Nat.succ_add]
      cases text with
      | nil => rfl
      | cons char text =>
          simp only [readDigits]
          split
          · exact induction _ _
          · rfl

/-- The three digits of the milliseconds, read as nanoseconds. -/
theorem readFraction_millis {millis : Nat} (small : millis < 1000) :
    readFraction ('.' :: (fixedDigits 3 millis ++ ['Z'])) =
      some (millis * 1000000, ['Z']) := by
  have digits := fixedDigits_isDigit 3 millis
  have zone : ¬ 'Z'.isDigit = true := by decide
  have taken : (fixedDigits 3 millis ++ ['Z']).takeWhile Char.isDigit =
      fixedDigits 3 millis := by
    rw [List.takeWhile_append_of_pos digits, List.takeWhile_cons_of_neg zone,
      List.append_nil]
  have dropped : (fixedDigits 3 millis ++ ['Z']).dropWhile Char.isDigit =
      ['Z'] := by
    rw [List.dropWhile_append_of_pos digits, List.dropWhile_cons_of_neg zone]
  have some : fixedDigits 3 millis ≠ [] := by
    intro empty
    have length := length_fixedDigits 3 millis
    rw [empty] at length
    cases length
  have zeros : List.replicate (9 - 3) '0' = fixedDigits 6 0 ++ [] := by decide
  have read : readDigits 9 0
      (fixedDigits 3 millis ++ List.replicate (9 - 3) '0') =
        Option.some (millis * 1000000, []) := by
    rw [readDigits_add 3 6, readDigits_small small, Option.bind_some, zeros,
      readDigits_fixedDigits]
    norm_num
  have short : (fixedDigits 3 millis).take 9 = fixedDigits 3 millis :=
    List.take_of_length_le (by simp)
  simp only [readFraction, taken, dropped, if_neg some, short,
    length_fixedDigits, read, Option.bind_eq_bind, Option.bind_some,
    Option.pure_def]

theorem parts_of_instant (instant start : Int) :
    ((instant * 1000000 / 1000000000 / 86400 + start - start) * 86400 +
      ((instant / 1000 % 86400).toNat : Int) - 0) * 1000000000 +
        (((instant % 1000).toNat * 1000000 : Nat) : Int) =
      instant * 1000000 := by
  omega

/-- The server reads what `toISOString` writes, for the years that RFC 3339
has. -/
theorem readTime_toISOString {instant : Int}
    (lower : 0 ≤ (dateOfInstant instant).year)
    (upper : (dateOfInstant instant).year ≤ 9999) :
    readTime (toISOString instant) = some (instant * 1000000) := by
  have inDay : (instant / 1000 % 86400).toNat < 86400 := by omega
  have millis : (instant % 1000).toNat < 1000 := by omega
  have valid := dateOfTime_valid (instant * 1000000)
  have bounds : (dateOfInstant instant).month < 10 ^ 2 ∧
      (dateOfInstant instant).day < 10 ^ 2 := valid.bounds
  have year : (dateOfInstant instant).year.natAbs < 10 ^ 4 := by omega
  have sameYear : ((dateOfInstant instant).year.natAbs : Int) =
      (dateOfInstant instant).year := by
    omega
  have day : dayOf (dateOfInstant instant) =
      instant * 1000000 / 1000000000 / 86400 + unixDay :=
    dayOf_dateOf _
  have dated : dateExists (dateOfInstant instant) = true :=
    dateExists_of_valid valid
  rw [toISOString, isoYear, if_pos ⟨lower, upper⟩, readTime]
  simp only [readDigits_small year, expect_self,
    readDigits_small bounds.1, readDigits_small bounds.2,
    readClock_clockText inDay, readFraction_millis millis, readZone,
    Option.bind_eq_bind, Option.bind_some, sameYear, dated, day,
    if_true, Option.some.injEq]
  exact parts_of_instant instant unixDay

/-- A year with a sign is not read. -/
theorem readTime_toISOString_eq_none {instant : Int}
    (outside : ¬(0 ≤ (dateOfInstant instant).year ∧
      (dateOfInstant instant).year ≤ 9999)) :
    readTime (toISOString instant) = none := by
  have minus : '-'.isDigit = false := by decide
  have plus : '+'.isDigit = false := by decide
  apply readTime_eq_none
  rw [toISOString, isoYear, if_neg outside, List.cons_append, readDigits]
  split <;> simp [minus, plus]

end Xoxproxy.Web
