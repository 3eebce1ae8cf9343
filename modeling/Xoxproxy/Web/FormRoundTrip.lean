import Xoxproxy.Store.TimestampOrder
import Xoxproxy.Users.Validation
import Xoxproxy.Web.Units

/-!
# Editing without changes

What `UserForm` submits when it was opened on a user and not touched.
-/

namespace Xoxproxy.Web

open Binary64 CivilCalendar

/-- A user that the API returns: the service accepted its limits, they
are below 2^53, and RFC 3339 has its expiry. -/
structure Returnable (user : Xoxproxy.ProxyUser) : Prop where
  accepted : ValidLimits user.downloadBPS user.uploadBPS
    user.maxConnections user.quotaBytesDaily user.quotaBytesMonthly
  small : ∀ limit ∈ [user.downloadBPS, user.uploadBPS, user.maxConnections,
    user.quotaBytesDaily, user.quotaBytesMonthly], limit < 2 ^ 53
  dated : ∀ expiresAt, user.expiresAt = some expiresAt →
    FourDigitYear expiresAt

/-- The values are those of the user. -/
structure Unchanged (user : Xoxproxy.ProxyUser) (values : UserFormValues) :
    Prop where
  protocols : values.allowedProtocols = user.allowedProtocols
  download : values.downloadLimitBps = numberOf user.downloadBPS
  upload : values.uploadLimitBps = numberOf user.uploadBPS
  connections : values.maxConnections = numberOf user.maxConnections
  daily : values.quotaBytesDaily = numberOf user.quotaBytesDaily
  monthly : values.quotaBytesMonthly = numberOf user.quotaBytesMonthly
  expiry : values.expiresAt.map (fun text => readTime text.toList) =
    user.expiresAt.map some

/-- What the units of the form can tell: bandwidths that survive the
division, quotas in whole megabytes and gigabytes, and the last second of
a day. -/
structure FormExact (user : Xoxproxy.ProxyUser) : Prop where
  download : MegabitExact user.downloadBPS.toNat
  upload : MegabitExact user.uploadBPS.toNat
  daily : user.quotaBytesDaily % 1000000 = 0
  monthly : user.quotaBytesMonthly % 1000000000 = 0
  expiry : ∀ expiresAt, user.expiresAt = some expiresAt →
    expiresAt % 86400000000000 = 86399000000000

theorem toList_formatDay {time : Time} (inRange : FourDigitYear time) :
    (formatDay time).toList =
      fixedDigits 4 (dateOfTime time).year.natAbs ++
        '-' :: (fixedDigits 2 (dateOfTime time).month ++
          '-' :: fixedDigits 2 (dateOfTime time).day) := by
  rw [formatDay, String.toList_ofList, yearText_of_fourDigits inRange]

/-- The first ten characters of a timestamp are its day. -/
theorem take_formatTime {time : Time} (inRange : FourDigitYear time) :
    (formatTime time).toList.take 10 = (formatDay time).toList := by
  have ten : (formatDay time).toList.length = 10 := by
    rw [toList_formatDay inRange]
    simp
  have parts : (formatTime time).toList = (formatDay time).toList ++
      'T' :: (clockText (clockOf time) ++ timeTail (nanosOf time)) := by
    rw [toList_formatTime, yearText_of_fourDigits inRange,
      toList_formatDay inRange]
    simp
  rw [parts, List.take_left' ten]

/-- The end of the day on which an instant lies, in milliseconds. -/
def endOfDay (time : Time) : Int :=
  (time / 1000000000 / 86400 * 86400 + 86399) * 1000

theorem readInstant_endOfDay {time : Time} (inRange : FourDigitYear time) :
    readInstant ((formatDay time).toList ++ "T23:59:59Z".toList) =
      some (endOfDay time) := by
  have bounds : (dateOfTime time).month < 10 ^ 2 ∧
      (dateOfTime time).day < 10 ^ 2 :=
    (dateOfTime_valid time).bounds
  obtain ⟨lower, upper⟩ := inRange
  have year : (dateOfTime time).year.natAbs < 10 ^ 4 := by omega
  have sameYear : ((dateOfTime time).year.natAbs : Int) =
      (dateOfTime time).year := by
    omega
  have day : dayOf (dateOfTime time) =
      time / 1000000000 / 86400 + unixDay :=
    dayOf_dateOf _
  have dated := dateExists_of_valid (dateOfTime_valid time)
  have clock : readClock "23:59:59Z".toList = some (86399, ['Z']) := by
    decide
  have text : "T23:59:59Z".toList = 'T' :: "23:59:59Z".toList := by decide
  rw [toList_formatDay ⟨lower, upper⟩, text, readInstant]
  simp only [List.append_assoc, List.cons_append, readDigits_small year,
    expect_self, readDigits_small bounds.1, readDigits_small bounds.2, clock,
    Option.bind_eq_bind, Option.bind_some, sameYear, dated, day, and_self,
    if_true, endOfDay, Int.add_sub_cancel]
  norm_num

theorem dateOfInstant_endOfDay (time : Time) :
    dateOfInstant (endOfDay time) = dateOfTime time := by
  have day : endOfDay time * 1000000 / 1000000000 / 86400 =
      time / 1000000000 / 86400 := by
    rw [endOfDay]
    omega
  rw [dateOfInstant, dateOfTime, day, dateOfTime]

/-- The limits of such a user are natural numbers. -/
theorem natural_of_accepted {user : Xoxproxy.ProxyUser}
    (returnable : Returnable user) :
    ∀ limit ∈ [user.downloadBPS, user.uploadBPS, user.maxConnections,
      user.quotaBytesDaily, user.quotaBytesMonthly],
        ∃ number : Nat, limit = number ∧ number < 2 ^ 53 := by
  intro limit member
  have small := returnable.small limit member
  obtain ⟨download, upload, connections, daily, monthly⟩ :=
    returnable.accepted
  have nonneg : 0 ≤ limit := by
    unfold ValidQuotaBytes miB at daily monthly
    simp only [List.mem_cons, List.not_mem_nil, or_false] at member
    rcases member with rfl | rfl | rfl | rfl | rfl <;> omega
  exact ⟨limit.toNat, by omega, by omega⟩

theorem bandwidth_sent_iff {bandwidth : Int}
    (natural : ∃ number : Nat, bandwidth = number ∧ number < 2 ^ 53) :
    scaledField 1000000 (bandwidthText (numberOf bandwidth)) =
      numberOf bandwidth ↔ MegabitExact bandwidth.toNat := by
  obtain ⟨number, rfl, small⟩ := natural
  exact bandwidth_survives_iff small

theorem connections_sent {connections : Int}
    (natural : ∃ number : Nat, connections = number ∧ number < 2 ^ 53) :
    connectionsField (connectionsText (numberOf connections)) =
      numberOf connections := by
  obtain ⟨number, rfl, small⟩ := natural
  exact connections_survive small

theorem quota_sent_iff {quota : Int} {unit : Nat}
    (natural : ∃ number : Nat, quota = number ∧ number < 2 ^ 53)
    (two : 2 ≤ unit) (even : unit % 2 = 0) (modest : unit ≤ 2 ^ 50) :
    scaledField unit (quotaText unit (numberOf quota)) = numberOf quota ↔
      quota % unit = 0 := by
  obtain ⟨number, rfl, small⟩ := natural
  rw [quota_survives_iff small two even modest]
  omega

theorem endOfDay_eq_iff (time : Int) :
    endOfDay time * 1000000 = time ↔
      time % 86400000000000 = 86399000000000 := by
  rw [endOfDay]
  omega

section Expiry

variable [LooseDates]

/-- An expiry moves to the end of its day. -/
theorem expiry_sent {time : Time} (inRange : FourDigitYear time) :
    ∃ sent, expiryField
        (String.ofList ((formatTime time).toList.take 10)) =
      some (some sent) ∧
        readTime sent.toList = some (endOfDay time * 1000000) := by
  have text : String.ofList ((formatTime time).toList.take 10) =
      formatDay time := by
    rw [take_formatTime inRange, String.ofList_toList]
  have some : formatDay time ≠ "" := by
    intro empty
    have length := congrArg List.length (toList_formatDay inRange)
    rw [empty] at length
    simp at length
  refine ⟨String.ofList (toISOString (endOfDay time)), ?_, ?_⟩
  · rw [text, expiryField, if_neg some, newDate, readInstant_endOfDay inRange]
    rfl
  · rw [String.toList_ofList]
    apply readTime_toISOString
    · rw [dateOfInstant_endOfDay]
      exact inRange.1
    · rw [dateOfInstant_endOfDay]
      exact Int.lt_add_one_iff.mp inRange.2

/-- What is submitted when nothing was touched. -/
theorem submit_opened {user : Xoxproxy.ProxyUser}
    (returnable : Returnable user) :
    ∃ sent, (UserForm.opened (some (received user))).submit
        (some (received user)) =
      some {
        username := trim user.username
        password := none
        allowedProtocols := user.allowedProtocols
        downloadLimitBps := scaledField 1000000
          (bandwidthText (numberOf user.downloadBPS))
        uploadLimitBps := scaledField 1000000
          (bandwidthText (numberOf user.uploadBPS))
        maxConnections := connectionsField
          (connectionsText (numberOf user.maxConnections))
        quotaBytesDaily := scaledField 1000000
          (quotaText 1000000 (numberOf user.quotaBytesDaily))
        quotaBytesMonthly := scaledField 1000000000
          (quotaText 1000000000 (numberOf user.quotaBytesMonthly))
        expiresAt := sent } ∧
      sent.map (fun text => readTime text.toList) =
        user.expiresAt.map fun expiresAt =>
          some (endOfDay expiresAt * 1000000) := by
  cases expiry : user.expiresAt with
  | none =>
      refine ⟨none, ?_, rfl⟩
      simp [UserForm.opened, UserForm.submit, received, expiry, expiryField]
  | some expiresAt =>
      obtain ⟨sent, field, read⟩ :=
        expiry_sent (returnable.dated expiresAt expiry)
      refine ⟨some sent, ?_, congrArg some read⟩
      simp only [UserForm.opened, UserForm.submit, received, expiry,
        Option.map_some, field]

/-- An untouched edit form submits the user as it is exactly when the
units of the form can tell its values. -/
theorem edit_unchanged_iff (user : Xoxproxy.ProxyUser)
    (returnable : Returnable user) :
    ∃ values, (UserForm.opened (some (received user))).submit
        (some (received user)) = some values ∧
      (Unchanged user values ↔ FormExact user) := by
  have natural := natural_of_accepted returnable
  have download := bandwidth_sent_iff (natural user.downloadBPS (by simp))
  have upload := bandwidth_sent_iff (natural user.uploadBPS (by simp))
  have connections := connections_sent (natural user.maxConnections (by simp))
  have daily := @quota_sent_iff _ 1000000
    (natural user.quotaBytesDaily (by simp)) (by decide) (by decide) (by decide)
  have monthly := @quota_sent_iff _ 1000000000
    (natural user.quotaBytesMonthly (by simp)) (by decide) (by decide)
      (by decide)
  obtain ⟨sent, submitted, expiry⟩ := submit_opened returnable
  have dated :
      sent.map (fun text => readTime text.toList) = user.expiresAt.map some ↔
        ∀ expiresAt, user.expiresAt = some expiresAt →
          expiresAt % 86400000000000 = 86399000000000 := by
    rw [expiry]
    cases user.expiresAt with
    | none => simp
    | some expiresAt => simp [endOfDay_eq_iff]
  refine ⟨_, submitted, ?_⟩
  constructor
  · intro unchanged
    exact {
      download := download.mp unchanged.download
      upload := upload.mp unchanged.upload
      daily := daily.mp unchanged.daily
      monthly := monthly.mp unchanged.monthly
      expiry := dated.mp unchanged.expiry }
  · intro exact
    exact {
      protocols := rfl
      download := download.mpr exact.download
      upload := upload.mpr exact.upload
      connections := connections
      daily := daily.mpr exact.daily
      monthly := monthly.mpr exact.monthly
      expiry := dated.mpr exact.expiry }

end Expiry

/-- The dates of a browser that reads the standard formats only. -/
@[reducible] def standardDates : LooseDates := ⟨fun _ => none⟩

/-- A user with the smallest monthly quota that the service accepts. -/
def smallQuotaUser : Xoxproxy.ProxyUser where
  id := 1
  serverID := "local"
  username := "alice"
  status := .active
  allowedProtocols := ["http"]
  downloadBPS := 2500000
  uploadBPS := 0
  maxConnections := 5
  quotaBytesDaily := 0
  quotaBytesMonthly := 1048576
  expiresAt := none
  version := 1
  createdAt := 0
  updatedAt := 0
  lastSeenAt := none

theorem smallQuotaUser_returnable : Returnable smallQuotaUser where
  accepted := ⟨by decide, by decide, by decide, .inl rfl, .inr (by decide)⟩
  small := by decide
  dated := fun _ same => by cases same

/-- The quota of an untouched form is zero, which is none. -/
theorem untouched_quota_removed :
    Returnable smallQuotaUser ∧
      ∃ values, @UserForm.submit standardDates
          (some (received smallQuotaUser))
          (.opened (some (received smallQuotaUser))) = some values ∧
        values.quotaBytesMonthly = numberOf 0 ∧
        ¬Unchanged smallQuotaUser values := by
  have sent : (@UserForm.submit standardDates
      (some (received smallQuotaUser))
      (.opened (some (received smallQuotaUser)))).map
        UserFormValues.quotaBytesMonthly = some (numberOf 0) ∧
      numberOf 0 ≠ numberOf smallQuotaUser.quotaBytesMonthly := by
    decide +kernel
  obtain ⟨values, submitted, quota⟩ := Option.map_eq_some_iff.mp sent.1
  refine ⟨smallQuotaUser_returnable, values, submitted, quota, ?_⟩
  intro unchanged
  exact sent.2 (quota.symm.trans unchanged.monthly)

/-- A user with round numbers, and an expiry at the end of a day. -/
def roundNumbersUser : Xoxproxy.ProxyUser :=
  { smallQuotaUser with
    quotaBytesDaily := 250000000, quotaBytesMonthly := 5000000000
    expiresAt := some (1760399999 * 1000000000) }

theorem roundNumbersUser_returnable : Returnable roundNumbersUser where
  accepted := ⟨by decide, by decide, by decide, .inr (by decide),
    .inr (by decide)⟩
  small := by decide
  dated := by
    intro expiresAt same
    rw [← Option.some.inj same, FourDigitYear]
    decide +kernel

theorem roundNumbersUser_exact : FormExact roundNumbersUser where
  download := by decide +kernel
  upload := by decide +kernel
  daily := by decide
  monthly := by decide
  expiry := by
    intro expiresAt same
    rw [← Option.some.inj same]
    decide

/-- Such a user comes back as it is. -/
theorem round_numbers_unchanged :
    ∃ values, @UserForm.submit standardDates
        (some (received roundNumbersUser))
        (.opened (some (received roundNumbersUser))) = some values ∧
      Unchanged roundNumbersUser values := by
  obtain ⟨values, submitted, unchanged⟩ :=
    @edit_unchanged_iff standardDates roundNumbersUser
      roundNumbersUser_returnable
  exact ⟨values, submitted, unchanged.mpr roundNumbersUser_exact⟩

end Xoxproxy.Web
