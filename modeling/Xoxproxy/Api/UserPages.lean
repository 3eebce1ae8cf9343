import Xoxproxy.Analytics.ChargedOnce
import Xoxproxy.Analytics.DatedRuns
import Xoxproxy.Analytics.Moments
import Xoxproxy.Api.AuditPages

/-!
# Pages of the users

`handleUserList` and `parseUserFilter` of `internal/api/user_handlers.go`,
and what a client sees that pages through the users while they change.
-/

namespace Xoxproxy.Api

open RowTables CursorPages Analytics

/-- The query parameters of a request, empty when they are absent. -/
structure UserQuery where
  limit : String := ""
  beforeID : String := ""
  status : String := ""
  deriving DecidableEq, Repr

/-- `userResponse`. -/
structure UserResponse where
  id : Int
  username : String
  status : String
  allowedProtocols : List String
  downloadBPS : Int
  uploadBPS : Int
  maxConnections : Int
  quotaBytesDaily : Int
  quotaBytesMonthly : Int
  expiresAt : Option Time
  version : Int
  createdAt : Time
  updatedAt : Time
  lastSeenAt : Option Time
  deriving DecidableEq, Repr

def toUserResponse (user : ProxyUser) : UserResponse where
  id := user.id
  username := user.username
  status := statusText user.status
  allowedProtocols := user.allowedProtocols
  downloadBPS := user.downloadBPS
  uploadBPS := user.uploadBPS
  maxConnections := user.maxConnections
  quotaBytesDaily := user.quotaBytesDaily
  quotaBytesMonthly := user.quotaBytesMonthly
  expiresAt := user.expiresAt
  version := user.version
  createdAt := user.createdAt
  updatedAt := user.updatedAt
  lastSeenAt := user.lastSeenAt

/-- The page size of a request. -/
def userPageLimit (text : String) : Option Int :=
  if text = "" then some 100
  else (atoi text).filter fun n => 1 ≤ n ∧ n ≤ 500

/-- A status to select, or none at all. -/
def KnownStatus (text : String) : Prop :=
  text = "" ∨ text = statusText .active ∨ text = statusText .disabled ∨
    text = statusText .expired

instance (text : String) : Decidable (KnownStatus text) :=
  inferInstanceAs (Decidable (_ ∨ _ ∨ _ ∨ _))

def parseUserFilter (query : UserQuery) : Except Reply UserFilter :=
  match userPageLimit query.limit with
  | none =>
      .error (writeError 400 "INVALID_REQUEST" "limit must be 1-500")
  | some limit =>
      match pageCursor query.beforeID with
      | none =>
          .error (writeError 400 "INVALID_REQUEST"
            "before_id must be a positive integer")
      | some beforeID =>
          if KnownStatus query.status then
            .ok {
              status := query.status
              beforeID := beforeID
              limit := limit }
          else
            .error (writeError 400 "INVALID_REQUEST"
              "status must be active, disabled or expired")

section Handlers

variable [Build]

def handleUserList (database : Database) (query : UserQuery) :
    Except Reply (List UserResponse) :=
  match parseUserFilter query with
  | .error reply => .error reply
  | .ok filter =>
      match database.listUsers filter with
      | .error _ => .error (writeError 500 "INTERNAL" "internal error")
      | .ok list => .ok (list.map toUserResponse)

/-- The answers to a client that asks behind the last user of every full
page, each from the database of its moment; `none` if it is refused, or not
done after so many requests. -/
def followUsers (databases : Nat → Database) (limitText status : String)
    (limit : Int) : Nat → Nat → String → Option (List (List UserResponse))
  | 0, _, _ => none
  | requests + 1, moment, beforeID =>
      match handleUserList (databases moment)
          ⟨limitText, beforeID, status⟩ with
      | .error _ => none
      | .ok users =>
          match (if (users.length : Int) = limit then
              users.getLast?.map UserResponse.id else none) with
          | none => some [users]
          | some last =>
              (followUsers databases limitText status limit requests
                (moment + 1) (toString last)).map fun pages => users :: pages

end Handlers

/-- The rows of a status, all when it is empty. -/
def ofStatus (status : String) (row : UserRow) : Bool :=
  status == "" || statusText row.status == status

/-- They are listed with the latest first. -/
def latestOfStatus (database : Database) (status : String) :
    List UserRow :=
  (database.users.filter (ofStatus status)).mergeSort
    fun first second => decide (second.id ≤ first.id)

variable {database : Database} {status : String} {limit : Int}
variable {cursor : Option Int}

theorem mem_latestOfStatus {row : UserRow} :
    row ∈ latestOfStatus database status ↔
      row ∈ database.users ∧ ofStatus status row = true := by
  rw [latestOfStatus, List.mem_mergeSort, List.mem_filter]

theorem latestOfStatus_descending (consistent : Consistent database)
    (status : String) :
    Descending UserRow.id (latestOfStatus database status) :=
  descending_mergeSort
    (consistent.ids.sublist (List.filter_sublist.map UserRow.id))

theorem userPageLimit_bounds {text : String}
    (accepted : userPageLimit text = some limit) :
    1 ≤ limit ∧ limit ≤ 500 := by
  unfold userPageLimit at accepted
  split at accepted
  · rw [← Option.some.inj accepted]
    decide
  · have bounds := (Option.filter_eq_some_iff.mp accepted).2
    exact of_decide_eq_true bounds

/-- The condition of the query is the cursor's. -/
theorem filter_cursor (valid : ValidCursor cursor) (rows : List UserRow) :
    (rows.filter fun row => decide (cursor.getD 0 ≤ 0) ||
      decide (row.id < cursor.getD 0)) = behind UserRow.id cursor rows := by
  cases cursor with
  | none => simp
  | some id =>
      have positive : ¬ id ≤ 0 := by
        have bounds := valid id rfl
        omega
      simp [behind_some, positive]

/-- The repository selects a page of the rows of the status. -/
theorem userPage_eq (consistent : Consistent database)
    (bounds : 1 ≤ limit ∧ limit ≤ 500) (valid : ValidCursor cursor) :
    database.userPage {
        status := status, beforeID := cursor.getD 0, limit := limit } =
      (page UserRow.id limit.toNat cursor
        (latestOfStatus database status)).items := by
  have kept : ¬ (limit ≤ 0 ∨ 500 < limit) := by omega
  have ofRows : (database.users.filter fun row =>
      (status == "" || statusText row.status == status) &&
        (("" : String) == "" || row.username == "") &&
        (decide (cursor.getD 0 ≤ 0) ||
          decide (row.id < cursor.getD 0))) =
      (database.users.filter (ofStatus status)).filter fun row =>
        decide (cursor.getD 0 ≤ 0) || decide (row.id < cursor.getD 0) := by
    rw [List.filter_filter]
    congr 1
    funext row
    simp [ofStatus, Bool.and_comm]
  have distinct : ((database.users.filter (ofStatus status)).map
      UserRow.id).Nodup :=
    consistent.ids.sublist (List.filter_sublist.map UserRow.id)
  rw [Database.userPage]
  dsimp only
  rw [if_neg kept, ofRows, mergeSort_filter distinct, filter_cursor valid,
    Int.toNat_zero, List.drop_zero, page_items, latestOfStatus]

section Answers

variable [Build]

/-- What a client is shown of a row. -/
def ShownAs (row : UserRow) (response : UserResponse) : Prop :=
  ∃ user, scanUser row = .ok user ∧ response = toUserResponse user

theorem ShownAs.id_eq {row : UserRow} {response : UserResponse}
    (shown : ShownAs row response) : response.id = row.id := by
  obtain ⟨user, read, rfl⟩ := shown
  exact (scanned_of_ok read).id

theorem map_id_of_shown {rows : List UserRow} {users : List UserResponse}
    (shown : List.Forall₂ ShownAs rows users) :
    users.map UserResponse.id = rows.map UserRow.id := by
  induction shown with
  | nil => rfl
  | cons first _ inductionHypothesis =>
      rw [List.map_cons, List.map_cons, first.id_eq, inductionHypothesis]

/-- An answer shows a page of the rows of the status. -/
theorem handleUserList_page (consistent : Consistent database)
    (dated : Dated database) {limitText : String}
    (accepted : userPageLimit limitText = some limit)
    (known : KnownStatus status) (valid : ValidCursor cursor) :
    ∃ users, handleUserList database
        ⟨limitText, cursorText cursor, status⟩ = .ok users ∧
      List.Forall₂ ShownAs
        (page UserRow.id limit.toNat cursor
          (latestOfStatus database status)).items users := by
  have bounds := userPageLimit_bounds accepted
  obtain ⟨list, listed⟩ := dated.answers.users {
    status := status, beforeID := cursor.getD 0, limit := limit }
  have read := listed
  rw [Database.listUsers, userPage_eq consistent bounds valid] at read
  refine ⟨list.map toUserResponse, ?_, ?_⟩
  · rw [handleUserList, parseUserFilter, accepted]
    dsimp only
    rw [pageCursor_cursorText valid]
    dsimp only
    rw [if_pos known]
    dsimp only
    rw [listed]
  · refine List.forall₂_map_right_iff.mpr ((readAll_ok read).imp ?_)
    exact fun row user scanned => ⟨user, scanned, rfl⟩

end Answers

/-! ## A client that follows the cursors -/

/-- The ids are those of one table, and what is stored can be read. -/
structure Listable (database : Database) : Prop where
  consistent : Consistent database
  dated : Dated database
  small : database.userSequence < 2 ^ 63

/-- The cursor behind a page is that of a row. -/
theorem Listable.validCursor (listable : Listable database) {row : UserRow}
    (listed : row ∈ latestOfStatus database status) :
    ValidCursor (some row.id) := by
  intro id same
  obtain rfl : row.id = id := Option.mem_some_iff.mp same
  have issued := listable.consistent.issued row
    (mem_latestOfStatus.mp listed).1
  have small := listable.small
  exact ⟨issued.1, by omega⟩

/-- Only users with the status are shown, each as it was stored at the
moment of its page; no user is shown twice; and whoever has the status at every
moment is shown. -/
structure UserPages [Build] (databases : Nat → Database) (status : String)
    (pages : List (List UserResponse)) : Prop where
  once : Descending UserResponse.id pages.flatten
  stored : ∀ index users, pages[index]? = some users →
    ∀ response ∈ users, ∃ row ∈ (databases index).users,
      ofStatus status row = true ∧ ShownAs row response
  found : ∀ id,
    (∀ index < pages.length, ∃ row ∈ (databases index).users,
      row.id = id ∧ ofStatus status row = true) →
        ∃ response ∈ pages.flatten, response.id = id

section Following

variable [Build] {databases : Nat → Database} {limitText : String}

/-- The answers that a client gets show the pages that it follows. -/
theorem followUsers_eq (listable : ∀ moment, Listable (databases moment))
    (accepted : userPageLimit limitText = some limit)
    (known : KnownStatus status) (requests moment : Nat)
    (valid : ValidCursor cursor) {pages : List (List UserRow)}
    (followed : follow UserRow.id limit.toNat
      (fun moment => latestOfStatus (databases moment) status) requests
        moment cursor = some pages) :
    ∃ answers, followUsers databases limitText status limit requests moment
        (cursorText cursor) = some answers ∧
      List.Forall₂ (List.Forall₂ ShownAs) pages answers := by
  have bounds := userPageLimit_bounds accepted
  induction requests generalizing moment cursor pages with
  | zero => cases followed
  | succ requests inductionHypothesis =>
      have here := listable moment
      obtain ⟨users, answered, shown⟩ := handleUserList_page
        here.consistent here.dated accepted known valid
      have ids := map_id_of_shown shown
      have continues : (if (users.length : Int) = limit then
          users.getLast?.map UserResponse.id else none) =
          (page UserRow.id limit.toNat cursor
            (latestOfStatus (databases moment) status)).next := by
        have count : (users.length : Int) = limit ↔
            (page UserRow.id limit.toNat cursor
              (latestOfStatus (databases moment) status)).items.length =
                limit.toNat := by
          rw [← shown.length_eq]
          omega
        rw [← List.getLast?_map, ids, List.getLast?_map, page]
        exact if_congr count rfl rfl
      rw [followUsers, answered]
      dsimp only
      rw [continues]
      rw [follow] at followed
      rcases @page_cases _ _ _ UserRow.id limit.toNat (by omega) cursor
          (latestOfStatus (databases moment) status) with
        ⟨next, -⟩ | ⟨front, last, rest, split, -, next⟩
      · rw [next] at followed ⊢
        rw [← Option.some.inj followed]
        exact ⟨_, rfl, .cons shown .nil⟩
      · rw [next] at followed ⊢
        obtain ⟨later, goesOn, rfl⟩ := Option.map_eq_some_iff.mp followed
        have listed : last ∈ latestOfStatus (databases moment) status := by
          have member : last ∈ behind UserRow.id cursor
              (latestOfStatus (databases moment) status) := by
            rw [split]
            exact List.mem_append_right _ List.mem_cons_self
          exact (mem_behind.mp member).1
        obtain ⟨answers, done, pairs⟩ :=
          inductionHypothesis (moment + 1) (here.validCursor listed) goesOn
        rw [cursorText] at done
        dsimp only
        rw [done, Option.map_some]
        exact ⟨_, rfl, .cons shown pairs⟩

/-- What is stable of the rows is stable of the answers. -/
theorem userPages_of_stable {pages : List (List UserRow)}
    {answers : List (List UserResponse)}
    (stable : Stable UserRow.id
      (fun moment => latestOfStatus (databases moment) status) 0 none pages)
    (shown : List.Forall₂ (List.Forall₂ ShownAs) pages answers) :
    UserPages databases status answers := by
  have flat : List.Forall₂ ShownAs pages.flatten answers.flatten :=
    List.rel_flatten shown
  have ids := map_id_of_shown flat
  refine ⟨?_, ?_, ?_⟩
  · have descends : (pages.flatten.map UserRow.id).Pairwise
        fun first second => second < first :=
      List.pairwise_map.mpr stable.once
    rw [← ids] at descends
    exact List.pairwise_map.mp descends
  · intro index users present response listed
    obtain ⟨within, rfl⟩ := List.getElem?_eq_some_iff.mp present
    have pairs := List.forall₂_iff_get.mp shown
    have inside : index < pages.length := by
      rw [pairs.1]
      exact within
    obtain ⟨row, member, same⟩ :=
      mem_of_forall₂ (pairs.2 index inside within) listed
    have stored := stable.listed index _
      (List.getElem?_eq_getElem inside) row member
    rw [Nat.zero_add] at stored
    obtain ⟨there, selected⟩ := mem_latestOfStatus.mp stored
    exact ⟨row, there, selected, same⟩
  · intro id stays
    obtain ⟨row, listed, same⟩ := stable.found id
      (fun bound absent => (by cases absent)) fun index inside => by
        rw [shown.length_eq] at inside
        obtain ⟨row, there, same, selected⟩ := stays index inside
        rw [Nat.zero_add]
        exact ⟨row, mem_latestOfStatus.mpr ⟨there, selected⟩, same⟩
    have member : id ∈ answers.flatten.map UserResponse.id := by
      rw [ids, ← same]
      exact List.mem_map_of_mem listed
    obtain ⟨response, found, equal⟩ := List.mem_map.mp member
    exact ⟨response, found, equal⟩

end Following

section Running

variable [Build] {options : Analytics.Options}

/-- The database after so many steps of a run. -/
def databaseAt (options : Analytics.Options)
    (actions : List PipelineAction) (count : Nat) : Database :=
  (Runs.run (Pipeline.step options) (actions.take count)
    (Pipeline.initial options)).host.database

theorem listable_databaseAt {actions : List PipelineAction}
    (dates : Runs.Meets (Pipeline.step options) (DatesInRange options)
      actions (Pipeline.initial options))
    (numbers : (Runs.run (Pipeline.step options) actions
      (Pipeline.initial options)).host.database.userSequence < 2 ^ 63)
    (count : Nat) : Listable (databaseAt options actions count) := by
  obtain ⟨start, held, -⟩ := kept_run options (actions.take count)
  have readable := datesHeld_run (dates.take count)
  have grows := @userSequence_run _ options (actions.drop count)
    (Runs.run (Pipeline.step options) (actions.take count)
      (Pipeline.initial options))
  rw [← Runs.run_append, List.take_append_drop] at grows
  exact ⟨held.accounts.balanced.users, readable.tables,
    grows.trans_lt numbers⟩

/-- However users are created, changed, disabled and deleted and the process
is restarted between the requests, paging through the users ends, and its
pages are right. -/
theorem users_paged (options : Analytics.Options)
    (actions : List PipelineAction) (moments : Nat → Nat)
    (limitText status : String) (limit : Int)
    (accepted : userPageLimit limitText = some limit)
    (known : KnownStatus status)
    (dates : Runs.Meets (Pipeline.step options) (DatesInRange options)
      actions (Pipeline.initial options))
    (numbers : (Runs.run (Pipeline.step options) actions
      (Pipeline.initial options)).host.database.userSequence < 2 ^ 63) :
    let databases := fun request =>
      databaseAt options actions (moments request)
    ∃ requests pages,
      followUsers databases limitText status limit requests 0 "" =
        some pages ∧
      UserPages databases status pages := by
  intro databases
  have listable : ∀ moment, Listable (databases moment) := fun moment =>
    listable_databaseAt dates numbers (moments moment)
  have bounds := userPageLimit_bounds accepted
  have positive : 0 < limit.toNat := by omega
  have descends : ∀ moment, Descending UserRow.id
      (latestOfStatus (databases moment) status) := fun moment =>
    latestOfStatus_descending (listable moment).consistent status
  obtain ⟨requests, rows, followed⟩ :=
    @follow_ends _ _ _ UserRow.id _
      (fun moment => latestOfStatus (databases moment) status) positive
      Int.toNat (fun moment row listed bound below => by
        have valid := (listable moment).validCursor listed row.id rfl
        omega) 0 none
  have start : ValidCursor none := by
    intro id absent
    cases absent
  obtain ⟨pages, done, shown⟩ :=
    followUsers_eq listable accepted known requests 0 start followed
  exact ⟨requests, pages, done,
    userPages_of_stable (follow_stable positive descends followed) shown⟩

end Running

/-- A user is deleted between two pages of one user each. -/
def deletedBetween : List PipelineAction :=
  [createAccount "alice", createAccount "bob", createAccount "carol",
    .store (.deleteUser 2) (calmAt 0)]

theorem users_paged_of_deleted :
    let databases := fun request =>
      @databaseAt Build.dev sampleOptions deletedBetween (3 + request)
    ∃ requests pages,
      @followUsers Build.dev databases "1" "active" 1 requests 0 "" =
        some pages ∧
      @UserPages Build.dev databases "active" pages :=
  @users_paged Build.dev sampleOptions deletedBetween (3 + ·) "1" "active" 1
    (by decide) (by decide) (by decide +kernel) (by decide +kernel)

end Xoxproxy.Api
