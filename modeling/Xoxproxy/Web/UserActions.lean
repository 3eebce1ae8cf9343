import Xoxproxy.Web.FormRoundTrip
import Xoxproxy.Web.SentNumbers

/-!
# The actions of the users page

What `Users.tsx` and `UserDetail.tsx` send for the actions on a user, and
what the handlers of `internal/api/user_handlers.go` make of it.
-/

namespace Xoxproxy.Web

open Binary64 CivilCalendar JsonObjects Api

def expiryValue : Option String → Value
  | none => .null
  | some expiresAt => .text expiresAt

/-- The entries of the form values; what is undefined is left out. -/
def UserFormValues.entries (values : UserFormValues) : Object :=
  ("username", .text values.username) ::
    (match values.password with
      | none => []
      | some password => [("password", .text password)]) ++
    [("allowed_protocols", .texts values.allowedProtocols),
      ("download_limit_bps", numberValue values.downloadLimitBps),
      ("upload_limit_bps", numberValue values.uploadLimitBps),
      ("max_connections", numberValue values.maxConnections),
      ("quota_bytes_daily", numberValue values.quotaBytesDaily),
      ("quota_bytes_monthly", numberValue values.quotaBytesMonthly),
      ("expires_at", expiryValue values.expiresAt)]

def ProxyUser.versionEntry (user : ProxyUser) : String × Value :=
  ("version", numberValue user.version)

/-- An action, with the record of its user and the content of its form. -/
inductive UserAction where
  | create (form : UserForm)
  | edit (user : Xoxproxy.ProxyUser) (form : UserForm)
  | enable (user : Xoxproxy.ProxyUser)
  | disable (user : Xoxproxy.ProxyUser)
  | rotate (user : Xoxproxy.ProxyUser)
  | resetQuota (user : Xoxproxy.ProxyUser)

/-- The body that an action sends, if it sends one. -/
def UserAction.body [LooseDates] : UserAction → Option Object
  | .create form => (form.submit none).map UserFormValues.entries
  | .edit user form =>
      (form.submit (some (received user))).map fun values =>
        values.entries ++ [(received user).versionEntry]
  | .enable user | .disable user | .rotate user | .resetQuota user =>
      some [(received user).versionEntry]

def UserAction.method : UserAction → String
  | .edit _ _ => "PATCH"
  | _ => "POST"

/-- `request` of `web/src/api/client.ts`. -/
def UserAction.request (action : UserAction) (body : Object) :
    JSONRequest where
  method := action.method
  contentType := "application/json"
  body := body

section Handlers

variable [Build]

/-- The handler of the action decodes the body. -/
def UserAction.Decodes (action : UserAction) (body : Object) : Prop :=
  match action with
  | .create _ => ∃ request,
      readJSON CreateUserRequest.fields {} (action.request body) = .ok request
  | .edit _ _ => ∃ request,
      readJSON UpdateUserRequest.fields {} (action.request body) = .ok request
  | .rotate _ => ∃ request,
      readJSON RotateRequest.fields {} (action.request body) = .ok request
  | .enable _ | .disable _ | .resetQuota _ => ∃ request,
      readJSON UserActionRequest.fields {} (action.request body) = .ok request

/-- An edit with an empty date field leaves no expiry. -/
def UserAction.Clears (action : UserAction) (body : Object) : Prop :=
  match action with
  | .edit user form => form.expires = "" → ∀ request,
      readJSON UpdateUserRequest.fields {} (action.request body) =
          .ok request →
        (request.input.merge user).expiresAt = none
  | _ => True

/-- Dashboard and server speak the same format. -/
def UserAction.Understood [LooseDates] (action : UserAction) : Prop :=
  ∀ body, action.body = some body → action.Decodes body ∧ action.Clears body

end Handlers

/-- What stands in a field with a unit fits. -/
def FieldFits (unit : Nat) (text : String) : Prop :=
  ∀ number, parseFloat text.toList = .finite number →
    Fits (number.value * unit)

/-- A form whose numbers and whose date the server can take, and which is
not too long. -/
structure UserForm.Acceptable [LooseDates] (form : UserForm) : Prop where
  download : FieldFits 1000000 form.downMbps
  upload : FieldFits 1000000 form.upMbps
  connections : ∀ number, parseInt form.maxConn.toList = .finite number →
    Fits number.value
  daily : FieldFits 1000000 form.quotaDailyMB
  monthly : FieldFits 1000000000 form.quotaMonthlyGB
  year : ∀ instant, form.expires ≠ "" →
    newDate (form.expires.toList ++ "T23:59:59Z".toList) = some instant →
      0 ≤ (dateOfInstant instant).year ∧ (dateOfInstant instant).year ≤ 9999
  short : ∀ values, form.submit none = some values →
    size values.entries ≤ maxBodyBytes

/-- No request is sent because the date field is no date. -/
def UserForm.Undated [LooseDates] (form : UserForm) : Prop :=
  expiryField form.expires = none

/-- The actions that are understood. -/
def UserAction.Acceptable [LooseDates] : UserAction → Prop
  | .create form => form.Undated ∨ form.Acceptable
  | .edit _ form => form.Undated
  | .rotate _ => False
  | .enable user | .disable user | .resetQuota user => Fits user.version

theorem fieldOf_username :
    fieldOf UpdateUserRequest.fields "username" = none := by
  rfl

theorem fieldOf_version : fieldOf RotateRequest.fields "version" = none := by
  rfl

theorem reads_fieldAs {Record Content : Type}
    {fields : List (RecordField Record)} {name : String}
    {read : Value → Option Content} {write : Record → Content → Record}
    (found : fieldOf fields name = some (fieldAs name read write))
    (value : Value) :
    Reads fields (name, value) ↔ (read value).isSome = true := by
  rw [Reads, found, Option.bind_some, fieldAs, Option.isSome_map]

/-- The names and the texts of the form are always read. -/
theorem reads_entries_iff (values : UserFormValues) :
    (∀ entry ∈ values.entries, Reads CreateUserRequest.fields entry) ↔
      Sendable values.downloadLimitBps ∧ Sendable values.uploadLimitBps ∧
        Sendable values.maxConnections ∧ Sendable values.quotaBytesDaily ∧
        Sendable values.quotaBytesMonthly ∧
        (instant (expiryValue values.expiresAt)).isSome = true := by
  have username : Reads CreateUserRequest.fields
      ("username", .text values.username) := rfl
  have protocols : Reads CreateUserRequest.fields
      ("allowed_protocols", .texts values.allowedProtocols) := rfl
  have password : ∀ entry ∈ (match values.password with
      | none => []
      | some password => [("password", Value.text password)]),
      Reads CreateUserRequest.fields entry := by
    cases values.password with
    | none => exact fun _ member => by cases member
    | some password =>
        intro entry member
        rw [List.mem_singleton.mp member]
        rfl
  have number : ∀ {name : String} {write} {sent : Double},
      fieldOf CreateUserRequest.fields name =
          some (fieldAs name int64 write) →
        (Reads CreateUserRequest.fields (name, numberValue sent) ↔
          Sendable sent) :=
    fun found => reads_fieldAs found _
  rw [UserFormValues.entries, List.forall_mem_append, List.forall_mem_cons]
  simp only [List.forall_mem_cons, List.not_mem_nil, false_imp_iff,
    implies_true, and_true, username, protocols, true_and]
  rw [number rfl, number rfl, number rfl, number rfl, number rfl,
    reads_fieldAs rfl]
  exact and_iff_right password

theorem reads_version_iff (user : Xoxproxy.ProxyUser) :
    Reads UserActionRequest.fields (received user).versionEntry ↔
      Fits user.version := by
  rw [ProxyUser.versionEntry, reads_fieldAs rfl]
  exact sendable_round64_iff user.version

/-- The date field is read when its year has four digits. -/
theorem instant_expiryValue_iff [LooseDates] {text : String}
    {expiresAt : Option String} (field : expiryField text = some expiresAt) :
    (instant (expiryValue expiresAt)).isSome = true ↔
      ∀ instant, text ≠ "" →
        newDate (text.toList ++ "T23:59:59Z".toList) = some instant →
          0 ≤ (dateOfInstant instant).year ∧
            (dateOfInstant instant).year ≤ 9999 := by
  rw [expiryField] at field
  split at field
  case isTrue empty =>
    cases field
    exact iff_of_true rfl fun _ nonempty => absurd empty nonempty
  case isFalse nonempty =>
    obtain ⟨sent, read, rfl⟩ := Option.map_eq_some_iff.mp field
    rw [expiryValue, instant, Option.isSome_map, String.toList_ofList]
    constructor
    · intro isRead other _ same
      rw [read] at same
      cases same
      by_contra outside
      rw [readTime_toISOString_eq_none outside] at isRead
      cases isRead
    · intro inside
      obtain ⟨lower, upper⟩ := inside sent nonempty read
      rw [readTime_toISOString lower upper]
      rfl

section Requests

variable [Build] {Record : Type} {fields : List (RecordField Record)}

theorem exists_readJSON_iff {zero : Record} (action : UserAction)
    (body : Object) :
    (∃ record, readJSON fields zero (action.request body) = .ok record) ↔
      size body ≤ maxBodyBytes ∧ ∀ entry ∈ body, Reads fields entry := by
  have typed : (action.request body).contentType = "application/json" := rfl
  simp only [readJSON_ok_iff typed, exists_and_left]
  rw [← decode_isSome_iff zero, Option.isSome_iff_exists]
  rfl

/-- An entry that the handler does not know spoils the request. -/
theorem not_decoded {zero : Record} {action : UserAction} {body : Object}
    {entry : String × Value} (member : entry ∈ body)
    (unknown : fieldOf fields entry.1 = none) :
    ¬∃ record, readJSON fields zero (action.request body) = .ok record := by
  rw [exists_readJSON_iff]
  rintro ⟨_, reads⟩
  have known := reads entry member
  rw [Reads, unknown] at known
  cases known

end Requests

/-- Reading the entry of a field writes the field. -/
theorem change_fieldAs {Record Content : Type}
    {fields : List (RecordField Record)} {name : String}
    {read : Value → Option Content} {write : Record → Content → Record}
    (found : fieldOf fields name = some (fieldAs name read write))
    {value : Value} {change : Record → Record}
    (changes : ((fieldOf fields name).bind fun field => field.read value) =
      some change) :
    ∃ content, read value = some content ∧
      change = fun record => write record content := by
  rw [found, Option.bind_some, fieldAs] at changes
  obtain ⟨content, known, rfl⟩ := Option.map_eq_some_iff.mp changes
  exact ⟨content, known, rfl⟩

/-- Without the user name an edit would be read; but an empty date field
would leave the expiry as it is. -/
theorem empty_date_keeps_expiry {user : Xoxproxy.ProxyUser}
    {values : UserFormValues} {request : UpdateUserRequest}
    (edit : values.password = none) (empty : values.expiresAt = none)
    (decoded : decode UpdateUserRequest.fields {}
      (values.entries.tail ++ [(received user).versionEntry]) =
        some request) :
    (request.input.merge user).expiresAt = user.expiresAt := by
  let Kept : UpdateUserRequest → Prop := fun request =>
    request.expiresAt = none ∧ request.clearExpiration = false
  have number : ∀ {name : String} {write} {value : Value},
      fieldOf UpdateUserRequest.fields name =
          some (fieldAs name int64 write) →
        (∀ request content, Kept request → Kept (write request content)) →
        ∀ change, ((fieldOf UpdateUserRequest.fields name).bind
            fun field => field.read value) = some change →
          ∀ request, Kept request → Kept (change request) := by
    intro name write value found keeps change changes request kept
    obtain ⟨content, -, rfl⟩ := change_fieldAs found changes
    exact keeps request content kept
  have kept : Kept request := by
    refine decode_keeps ?_ ⟨rfl, rfl⟩ decoded
    rw [UserFormValues.entries, edit, empty]
    simp only [List.nil_append, List.cons_append, List.tail_cons,
      List.forall_mem_cons, List.not_mem_nil, false_imp_iff, implies_true,
      and_true]
    refine ⟨?_, number rfl fun _ _ kept => kept,
      number rfl fun _ _ kept => kept, number rfl fun _ _ kept => kept,
      number rfl fun _ _ kept => kept, number rfl fun _ _ kept => kept, ?_,
      number rfl fun _ _ kept => kept⟩
    · intro change changes request kept
      obtain ⟨content, -, rfl⟩ := change_fieldAs rfl changes
      exact kept
    · intro change changes request kept
      obtain ⟨content, null, rfl⟩ := change_fieldAs rfl changes
      cases null
      exact ⟨rfl, kept.2⟩
  have expiry : request.input.expiry user.expiresAt = user.expiresAt := by
    have unset : request.input.expiresAt = none := kept.1
    rw [UpdateInput.expiry, unset, if_neg]
    exact ne_true_of_eq_false kept.2
  exact expiry

theorem size_le (object : Object) :
    size object ≤ 4 * (written object).length := by
  have short : ∀ text : List Char,
      (String.ofList text).utf8ByteSize ≤ 4 * text.length := by
    intro text
    induction text with
    | nil => simp
    | cons char text induction =>
        have letter := char.utf8Size_le_four
        rw [String.ofList_cons, String.utf8ByteSize_append,
          String.utf8ByteSize_singleton, List.length_cons]
        omega
  exact short _

theorem length_written_version (value : Value) :
    (written [("version", value)]).length = 12 + value.written.length := by
  have name : quoted "version" = "\"version\"".toList := by decide
  simp [written, name, List.intercalate]
  omega

/-- A version that fits does not make the body too long. -/
theorem version_short {user : Xoxproxy.ProxyUser} (fits : Fits user.version) :
    size [(received user).versionEntry] ≤ maxBodyBytes := by
  have length := length_written_le fits
  calc size [(received user).versionEntry]
      ≤ 4 * (written [(received user).versionEntry]).length := size_le _
    _ = 4 * (12 + (numberValue (numberOf user.version)).written.length) :=
        congrArg (4 * ·) (length_written_version _)
    _ ≤ 4 * (12 + 22) :=
        Nat.mul_le_mul_left 4 (Nat.add_le_add_left length 12)
    _ ≤ maxBodyBytes := by decide

/-! ## Each action -/

section Actions

variable [Build] [LooseDates]

theorem create_understood_iff (form : UserForm) :
    (UserAction.create form).Understood ↔
      (UserAction.create form).Acceptable := by
  constructor
  · intro understood
    cases field : expiryField form.expires with
    | none => exact Or.inl field
    | some expiresAt =>
        obtain ⟨values, submitted⟩ : ∃ values,
            form.submit none = some values :=
          ⟨_, by rw [UserForm.submit, field, Option.map_some]⟩
        have sent : (UserAction.create form).body = some values.entries := by
          rw [UserAction.body, submitted, Option.map_some]
        obtain ⟨decodes, -⟩ := understood _ sent
        obtain ⟨small, reads⟩ := (exists_readJSON_iff _ _).mp decodes
        obtain ⟨download, upload, connections, daily, monthly, expiry⟩ :=
          (reads_entries_iff values).mp reads
        obtain ⟨_, same, rfl⟩ := Option.map_eq_some_iff.mp submitted
        cases field.symm.trans same
        right
        constructor
        · exact (sendable_scaledField_iff _ _).mp download
        · exact (sendable_scaledField_iff _ _).mp upload
        · exact (sendable_connectionsField_iff _).mp connections
        · exact (sendable_scaledField_iff _ _).mp daily
        · exact (sendable_scaledField_iff _ _).mp monthly
        · exact (instant_expiryValue_iff field).mp expiry
        · intro other again
          rw [submitted] at again
          cases again
          exact small
  · rintro (undated | acceptable) body sent
    · have nothing : form.submit none = none := by
        rw [UserForm.submit, undated, Option.map_none]
      rw [UserAction.body, nothing] at sent
      cases sent
    · obtain ⟨values, submitted, rfl⟩ := Option.map_eq_some_iff.mp sent
      refine ⟨(exists_readJSON_iff _ _).mpr
        ⟨acceptable.short values submitted, ?_⟩, trivial⟩
      obtain ⟨_, field, rfl⟩ := Option.map_eq_some_iff.mp submitted
      rw [reads_entries_iff]
      exact ⟨(sendable_scaledField_iff _ _).mpr acceptable.download,
        (sendable_scaledField_iff _ _).mpr acceptable.upload,
        (sendable_connectionsField_iff _).mpr acceptable.connections,
        (sendable_scaledField_iff _ _).mpr acceptable.daily,
        (sendable_scaledField_iff _ _).mpr acceptable.monthly,
        (instant_expiryValue_iff field).mpr acceptable.year⟩

/-- The update handler knows no user name, which the form always sends. -/
theorem edit_understood_iff (user : Xoxproxy.ProxyUser) (form : UserForm) :
    (UserAction.edit user form).Understood ↔
      (UserAction.edit user form).Acceptable := by
  constructor
  · intro understood
    change expiryField form.expires = none
    cases field : expiryField form.expires with
    | none => rfl
    | some expiresAt =>
        obtain ⟨values, submitted⟩ : ∃ values,
            form.submit (some (received user)) = some values :=
          ⟨_, by rw [UserForm.submit, field, Option.map_some]⟩
        have sent : (UserAction.edit user form).body =
            some (values.entries ++ [(received user).versionEntry]) := by
          rw [UserAction.body, submitted, Option.map_some]
        obtain ⟨decodes, -⟩ := understood _ sent
        have member : ("username", .text values.username) ∈
            values.entries ++ [(received user).versionEntry] := by
          simp [UserFormValues.entries]
        exact absurd decodes (not_decoded member fieldOf_username)
  · intro undated body sent
    have nothing : form.submit (some (received user)) = none := by
      rw [UserForm.submit, (undated : expiryField form.expires = none),
        Option.map_none]
    rw [UserAction.body, nothing] at sent
    cases sent

/-- The handler of the rotation knows no version. -/
theorem rotate_not_understood (user : Xoxproxy.ProxyUser) :
    ¬(UserAction.rotate user).Understood := by
  intro understood
  obtain ⟨decodes, -⟩ := understood _ rfl
  have unknown : fieldOf RotateRequest.fields
      (received user).versionEntry.1 = none := fieldOf_version
  exact not_decoded List.mem_cons_self unknown decodes

omit [LooseDates] in
theorem exists_version_iff (action : UserAction)
    (user : Xoxproxy.ProxyUser) :
    (∃ request, readJSON UserActionRequest.fields {}
      (action.request [(received user).versionEntry]) = .ok request) ↔
        Fits user.version := by
  rw [exists_readJSON_iff, List.forall_mem_singleton, reads_version_iff]
  exact and_iff_right_of_imp version_short

/-- Which actions dashboard and server understand in the same way. -/
theorem understood_iff (action : UserAction) :
    action.Understood ↔ action.Acceptable := by
  cases action with
  | create form => exact create_understood_iff form
  | edit user form => exact edit_understood_iff user form
  | rotate user =>
      exact iff_of_false (rotate_not_understood user) id
  | enable user | disable user | resetQuota user =>
      rw [UserAction.Acceptable, ← exists_version_iff (.enable user) user]
      constructor
      · intro understood
        exact (understood _ rfl).1
      · intro decodes body sent
        cases sent
        exact ⟨decodes, trivial⟩

end Actions

/-- The edit form, opened and submitted as it is. -/
theorem untouched_edit_not_understood :
    ¬ ∀ action, @UserAction.Understood Build.dev standardDates action := by
  intro always
  have undated := (@edit_understood_iff Build.dev standardDates
    smallQuotaUser (.opened (some (received smallQuotaUser)))).mp (always _)
  have sent : @expiryField standardDates "" = some none := rfl
  exact absurd (sent.symm.trans undated) (Option.some_ne_none _)

end Xoxproxy.Web
