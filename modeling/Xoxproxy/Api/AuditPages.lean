import Xoxproxy.Api.Cookies
import Xoxproxy.Library.CursorPages
import Xoxproxy.Store.AuditLog

/-!
# Pages of the audit trail

`handleAuditList` of `internal/api/audit_handlers.go`, and what a client
sees that follows the cursors of its answers.
-/

namespace Xoxproxy.Api

open RowTables CursorPages

def maxAuditPage : Int := 200

/-- The query parameters of a request, empty when they are absent. -/
structure AuditQuery where
  limit : String := ""
  beforeID : String := ""
  action : String := ""
  deriving DecidableEq, Repr

/-- `auditEntryResponse`. -/
structure AuditEntryResponse where
  id : Int
  timestamp : Time
  actor : String
  action : String
  target : String
  requestID : String
  sourceIP : String
  result : String
  detail : String
  deriving DecidableEq, Repr

structure AuditAnswer where
  entries : List AuditEntryResponse
  nextBeforeID : Option Int := none
  deriving DecidableEq, Repr

def auditListFilter (action : String) (beforeID limit : Int) :
    AuditFilter where
  action := action
  beforeID := beforeID
  limit := limit

/-- The page size of a request. -/
def pageLimit (text : String) : Option Int :=
  if text = "" then some 100
  else (atoi text).filter fun n => 1 ≤ n ∧ n ≤ maxAuditPage

/-- The cursor of a request, 0 without one. -/
def pageCursor (text : String) : Option Int :=
  if text = "" then some 0 else (atoi text).filter fun n => 1 ≤ n

def auditEntryResponse (entry : ListedEntry) : AuditEntryResponse where
  id := entry.id
  timestamp := entry.timestamp
  actor := entry.actor
  action := entry.action
  target := entry.target
  requestID := entry.requestID
  sourceIP := entry.sourceIP
  result := entry.result
  detail := entry.detail

section Handlers

variable [Build]

/-- `audit.Service.List`. -/
def listAudit (table : AuditTable) (filter : AuditFilter) :
    Except GoError (List ListedEntry) :=
  table.list { filter with
    limit :=
      if filter.limit ≤ 0 ∨ 200 < filter.limit then 100 else filter.limit }

/-- `handleAuditList`. -/
def handleAuditList (table : AuditTable) (query : AuditQuery) :
    Except Reply AuditAnswer :=
  match pageLimit query.limit with
  | none =>
      .error (writeError 400 "INVALID_REQUEST"
        "limit must be an integer between 1 and 200")
  | some limit =>
      match pageCursor query.beforeID with
      | none =>
          .error (writeError 400 "INVALID_REQUEST"
            "before_id must be a positive integer")
      | some beforeID =>
          match listAudit table
              (auditListFilter query.action beforeID limit) with
          | .error _ => .error (writeError 500 "INTERNAL" "internal error")
          | .ok entries =>
              let out := entries.map auditEntryResponse
              .ok {
                entries := out
                nextBeforeID :=
                  if (out.length : Int) = limit then
                    out.getLast?.map AuditEntryResponse.id
                  else none }

/-- The answers to a client that starts with the given cursor and follows
`next_before_id`, each from the table of its moment; `none` if it is
refused, or not done after so many requests. -/
def followAudit (tables : Nat → AuditTable) (limit action : String) :
    Nat → Nat → String → Option (List AuditAnswer)
  | 0, _, _ => none
  | requests + 1, moment, beforeID =>
      match handleAuditList (tables moment) ⟨limit, beforeID, action⟩ with
      | .error _ => none
      | .ok answer =>
          match answer.nextBeforeID with
          | none => some [answer]
          | some next =>
              (followAudit tables limit action requests (moment + 1)
                (toString next)).map fun answers => answer :: answers

end Handlers

/-- The table after some entries were recorded. -/
def recordAll (table : AuditTable) :
    List (AuditEntry × Stamp) → AuditTable
  | [] => table
  | (entry, stamp) :: later => recordAll (table.record entry stamp) later

/-- The table at the moment of each request, when entries are recorded in
between. -/
def tablesOf (table : AuditTable)
    (recorded : Nat → List (AuditEntry × Stamp)) : Nat → AuditTable
  | 0 => table
  | moment + 1 => recordAll (tablesOf table recorded moment) (recorded moment)

theorem latestOfAction_record (table : AuditTable) (entry : AuditEntry)
    (stamp : Stamp) (action : String) :
    ∃ fresh, (table.record entry stamp).latestOfAction action =
      fresh ++ table.latestOfAction action := by
  rw [AuditTable.record]
  split
  · refine ⟨([AuditTable.newRow entry stamp (table.sequence + 1)].filter
      fun row => action == "" || row.action == action).reverse, ?_⟩
    rw [AuditTable.latestOfAction, AuditTable.ofAction, List.filter_append,
      List.reverse_append, AuditTable.latestOfAction, AuditTable.ofAction]
  · exact ⟨[], rfl⟩

theorem latestOfAction_recordAll
    (recorded : List (AuditEntry × Stamp)) (table : AuditTable)
    (action : String) :
    ∃ fresh, (recordAll table recorded).latestOfAction action =
      fresh ++ table.latestOfAction action := by
  induction recorded generalizing table with
  | nil => exact ⟨[], rfl⟩
  | cons first later inductionHypothesis =>
      obtain ⟨entry, stamp⟩ := first
      obtain ⟨newer, grown⟩ := inductionHypothesis (table.record entry stamp)
      obtain ⟨fresh, before⟩ :=
        latestOfAction_record table entry stamp action
      exact ⟨newer ++ fresh, by
        rw [recordAll, grown, before, List.append_assoc]⟩

/-- The entry of a row, for a timestamp that can be read. -/
def entryOf (row : AuditRow) : ListedEntry where
  id := row.id
  timestamp := (readTime row.ts.toList).getD 0
  actor := row.actor
  action := row.action
  target := row.target
  requestID := row.requestID
  sourceIP := row.sourceIP
  userAgent := row.userAgent
  result := row.result
  detail := row.detail

/-- What a client is shown of a row. -/
def shown (row : AuditRow) : AuditEntryResponse :=
  auditEntryResponse (entryOf row)

@[simp]
theorem shown_id (row : AuditRow) : (shown row).id = row.id := rfl

/-- How the client writes a cursor. -/
def cursorText : Option Int → String
  | none => ""
  | some id => toString id

/-- A cursor of a row, or none at all. -/
def ValidCursor (cursor : Option Int) : Prop :=
  ∀ id ∈ cursor, 1 ≤ id ∧ id < 2 ^ 63

theorem pageCursor_cursorText {cursor : Option Int}
    (valid : ValidCursor cursor) :
    pageCursor (cursorText cursor) = some (cursor.getD 0) := by
  cases cursor with
  | none => rfl
  | some id =>
      obtain ⟨positive, small⟩ := valid id rfl
      obtain ⟨number, rfl⟩ := Int.eq_ofNat_of_zero_le (by omega : 0 ≤ id)
      have nonempty : toString (number : Int) ≠ "" := by
        intro empty
        have digits : atoi (toString number) = some (number : Int) :=
          atoi_natText (by omega)
        rw [show toString number = toString (number : Int) from rfl, empty]
          at digits
        cases digits
      rw [cursorText, pageCursor, if_neg nonempty]
      have read : atoi (toString (number : Int)) = some (number : Int) :=
        atoi_natText (by omega)
      rw [read, Option.getD_some]
      exact Option.filter_some_pos (by simpa using positive)

theorem pageLimit_bounds {text : String} {limit : Int}
    (accepted : pageLimit text = some limit) : 1 ≤ limit ∧ limit ≤ 200 := by
  unfold pageLimit at accepted
  split at accepted
  · rw [← Option.some.inj accepted]
    decide
  · have bounds := (Option.filter_eq_some_iff.mp accepted).2
    exact of_decide_eq_true bounds

section Answers

variable [Build]

theorem scanAudit_of_stamped {row : AuditRow}
    (stamped : ∃ time, readTime row.ts.toList = some time) :
    AuditTable.scanAudit row = .ok (entryOf row) := by
  obtain ⟨time, read⟩ := stamped
  rw [AuditTable.scanAudit, parseTime, read]
  simp only [entryOf, read, Option.getD_some]

theorem readAll_scanAudit {rows : List AuditRow}
    (stamped : ∀ row ∈ rows, ∃ time, readTime row.ts.toList = some time) :
    readAll AuditTable.scanAudit rows = .ok (rows.map entryOf) := by
  induction rows with
  | nil => rfl
  | cons row rest inductionHypothesis =>
      obtain ⟨first, others⟩ := List.forall_mem_cons.mp stamped
      simp only [readAll, scanAudit_of_stamped first, inductionHypothesis others,
        List.map_cons]

omit [Build] in
/-- The condition of the query is the cursor's. -/
theorem filter_beforeID {cursor : Option Int} (valid : ValidCursor cursor)
    (rows : List AuditRow) :
    (rows.filter fun row => !decide (0 < cursor.getD 0) ||
      decide (row.id < cursor.getD 0)) = behind AuditRow.id cursor rows := by
  cases cursor with
  | none => simp
  | some id =>
      have positive : 0 < id := by
        have bounds := valid id rfl
        omega
      simp [behind_some, positive]

/-- Neither the service nor the repository changes an accepted limit. -/
theorem listAudit_page (table : AuditTable) {action : String} {limit : Int}
    {cursor : Option Int} (bounds : 1 ≤ limit ∧ limit ≤ 200)
    (valid : ValidCursor cursor) :
    listAudit table (auditListFilter action (cursor.getD 0) limit) =
      .ok ((page AuditRow.id limit.toNat cursor
        (table.latestOfAction action)).items.map entryOf) := by
  have kept : ¬ (limit ≤ 0 ∨ 200 < limit) := by omega
  have selected : table.select {
      action := action, beforeID := cursor.getD 0, limit := limit } =
      (page AuditRow.id limit.toNat cursor
        (table.latestOfAction action)).items := by
    rw [AuditTable.select_eq table ⟨bounds.1, by dsimp only; omega⟩ rfl,
      page_items]
    dsimp only
    rw [filter_beforeID valid]
  rw [listAudit, auditListFilter]
  dsimp only
  rw [if_neg kept, AuditTable.list, selected]
  apply readAll_scanAudit
  intro row member
  rw [page_items] at member
  have listed := List.mem_of_mem_filter (List.mem_of_mem_take member)
  exact table.stamped row (List.mem_of_mem_filter (List.mem_reverse.mp listed))

/-- An answer as a page of the rows that the action selects. -/
theorem handleAuditList_page (table : AuditTable) {limitText action : String}
    {limit : Int} {cursor : Option Int}
    (accepted : pageLimit limitText = some limit)
    (valid : ValidCursor cursor) :
    handleAuditList table ⟨limitText, cursorText cursor, action⟩ =
      .ok {
        entries := (page AuditRow.id limit.toNat cursor
          (table.latestOfAction action)).items.map shown
        nextBeforeID := (page AuditRow.id limit.toNat cursor
          (table.latestOfAction action)).next } := by
  have bounds := pageLimit_bounds accepted
  have full : ∀ count : Nat, (count : Int) = limit ↔ count = limit.toNat := by
    intro count
    omega
  have ids : AuditEntryResponse.id ∘ shown = AuditRow.id := rfl
  rw [handleAuditList, accepted]
  dsimp only
  rw [pageCursor_cursorText valid]
  dsimp only
  rw [listAudit_page table bounds valid]
  simp only [List.map_map, List.length_map, List.getLast?_map, Option.map_map,
    full, page]
  rfl

end Answers

/-! ## A client that follows the cursors -/

/-- Recording keeps the order of what an action selects. -/
theorem tablesOf_grows (table : AuditTable)
    (recorded : Nat → List (AuditEntry × Stamp)) (action : String)
    (moment : Nat) :
    ∃ fresh, (tablesOf table recorded (moment + 1)).latestOfAction action =
      fresh ++ (tablesOf table recorded moment).latestOfAction action :=
  latestOfAction_recordAll (recorded moment) _ action

section Following

variable [Build] {tables : Nat → AuditTable} {limitText action : String}
  {limit : Int}

omit [Build] in
/-- The cursor behind a page is that of a row. -/
theorem validCursor_next {table : AuditTable} {cursor : Option Int}
    {next : Int}
    (found : (page AuditRow.id limit.toNat cursor
      (table.latestOfAction action)).next = some next) :
    ValidCursor (some next) := by
  intro id same
  obtain rfl : next = id := Option.mem_some_iff.mp same
  unfold page at found
  dsimp only at found
  split at found
  · obtain ⟨row, last, rfl⟩ := Option.map_eq_some_iff.mp found
    have listed := List.mem_of_mem_filter
      (List.mem_of_mem_take (List.mem_of_getLast? last))
    have numbered := table.numbered row
      (List.mem_of_mem_filter (List.mem_reverse.mp listed))
    have bounded := table.bounded
    exact ⟨numbered.1, by omega⟩
  · cases found

/-- The answers that a client gets are the pages that it follows. -/
theorem followAudit_eq (accepted : pageLimit limitText = some limit)
    (requests moment : Nat) {cursor : Option Int}
    (valid : ValidCursor cursor) {pages : List (List AuditRow)}
    (followed : follow AuditRow.id limit.toNat
      (fun moment => (tables moment).latestOfAction action) requests moment
        cursor = some pages) :
    ∃ answers, followAudit tables limitText action requests moment
        (cursorText cursor) = some answers ∧
      answers.map AuditAnswer.entries = pages.map (List.map shown) := by
  induction requests generalizing moment cursor pages with
  | zero => cases followed
  | succ requests inductionHypothesis =>
      rw [follow] at followed
      rw [followAudit, handleAuditList_page _ accepted valid]
      dsimp only
      cases next : (page AuditRow.id limit.toNat cursor
          ((tables moment).latestOfAction action)).next with
      | none =>
          rw [next] at followed
          rw [← Option.some.inj followed]
          exact ⟨_, rfl, rfl⟩
      | some bound =>
          rw [next] at followed
          obtain ⟨rest, later, rfl⟩ := Option.map_eq_some_iff.mp followed
          obtain ⟨answers, done, entries⟩ :=
            inductionHypothesis (moment + 1) (validCursor_next next) later
          rw [cursorText] at done
          dsimp only
          rw [done, Option.map_some]
          exact ⟨_, rfl, by rw [List.map_cons, List.map_cons, entries]⟩

end Following

/-- Every entry of the action that was there at the first request is listed
once, the latest first, and nothing else is. -/
theorem followAudit_complete [Build] (table : AuditTable)
    (recorded : Nat → List (AuditEntry × Stamp))
    (limitText action : String) (limit : Int)
    (accepted : pageLimit limitText = some limit) :
    ∃ requests answers entries,
      followAudit (tablesOf table recorded) limitText action requests 0 "" =
        some answers ∧
      readAll AuditTable.scanAudit (table.ofAction action).reverse =
        .ok entries ∧
      answers.flatMap AuditAnswer.entries =
        entries.map auditEntryResponse ∧
      entries.Pairwise fun first second => second.id < first.id := by
  have bounds := pageLimit_bounds accepted
  obtain ⟨requests, pages, followed, whole⟩ :=
    @follow_complete _ _ _ AuditRow.id limit.toNat
      (fun moment => (tablesOf table recorded moment).latestOfAction action)
      (by omega) (fun moment => AuditTable.latestOfAction_descending _ action)
      (tablesOf_grows table recorded action)
  have start : ValidCursor none := by
    intro id absent
    cases absent
  obtain ⟨answers, done, listed⟩ :=
    followAudit_eq accepted requests 0 start followed
  refine ⟨requests, answers, (table.latestOfAction action).map entryOf, done,
    readAll_scanAudit ?_, ?_, ?_⟩
  · intro row member
    exact table.stamped row
      (List.mem_of_mem_filter (List.mem_reverse.mp member))
  · rw [List.flatMap_def, listed, List.map_map, ← List.map_flatten, whole]
    rfl
  · exact List.pairwise_map.mpr (table.latestOfAction_descending action)

def sampleEntry (action : String) : AuditEntry where
  actor := "admin"
  action := action
  target := ""
  result := "success"
  detail := ""

/-- The first instant of 2026. -/
def sampleStamp : Stamp :=
  .ofYear 1767225600000000000 (by decide) (by decide)

/-- Pages of one entry, with a login recorded behind each. -/
theorem followAudit_logins :
    let _ := Build.dev
    let table := (AuditTable.empty.record (sampleEntry "admin.login")
      sampleStamp).record (sampleEntry "admin.login") sampleStamp
    ∃ requests answers entries,
      followAudit (tablesOf table
          fun _ => [(sampleEntry "admin.login", sampleStamp)])
        "1" "admin.login" requests 0 "" = some answers ∧
      readAll AuditTable.scanAudit (table.ofAction "admin.login").reverse =
        .ok entries ∧
      answers.flatMap AuditAnswer.entries =
        entries.map auditEntryResponse ∧
      entries.Pairwise fun first second => second.id < first.id := by
  let _ := Build.dev
  exact followAudit_complete _ _ "1" "admin.login" 1 (by decide)

end Xoxproxy.Api
