import Xoxproxy.Store.AdminTables
import Xoxproxy.Store.Queries
import Xoxproxy.Store.TimestampOrder

/-!
# Comparisons of stored timestamps

The statements that compare timestamps in SQL.  Each of them does what the
instants ask for exactly where no two timestamps that it compares clash.
-/

namespace Xoxproxy

open CivilCalendar RowTables Transactions

/-- The instant that a column denotes. -/
def storedTime (column : Option String) : Option Time :=
  column.bind fun text => readTime text.toList

theorem storedTime_some (text : String) :
    storedTime (some text) = readTime text.toList := rfl

/-- The column was written from an instant that the layout can write, or
is empty. -/
def Stamped (column : Option String) : Prop :=
  ∃ time, column = formatNullTime time ∧
    ∀ instant, time = some instant → FourDigitYear instant

theorem storedTime_formatNullTime
    {time : Option Time}
    (inRange : ∀ instant, time = some instant → FourDigitYear instant) :
    storedTime (formatNullTime time) = time := by
  cases time with
  | none => rfl
  | some instant =>
      obtain ⟨lower, upper⟩ := inRange instant rfl
      rw [formatNullTime, Option.map_some, storedTime_some,
        readTime_formatTime lower upper]

/-- A stamped column is empty or the text of the instant it denotes. -/
theorem Stamped.cases
    {column : Option String} (stamped : Stamped column) :
    column = none ∧ storedTime column = none ∨
      ∃ instant, column = some (formatTime instant) ∧
        storedTime column = some instant ∧ FourDigitYear instant := by
  obtain ⟨time, written, inRange⟩ := stamped
  have stored := storedTime_formatNullTime inRange
  rw [← written] at stored
  cases time with
  | none => exact Or.inl ⟨written, stored⟩
  | some instant =>
      exact Or.inr ⟨instant, written, stored, inRange instant rfl⟩

/-- Comparing two timestamps as text agrees with the instants exactly if
they do not clash. -/
theorem formatTime_chronological_iff
    {first second : Time} (inRange : FourDigitYear first)
    (alsoInRange : FourDigitYear second) :
    (formatTime first < formatTime second ↔ first < second) ↔
      ¬ Clash first second := by
  constructor
  · intro agrees clash
    have reversed :=
      formatTime_lt_iff_of_clash inRange alsoInRange clash
    have different := clash.different
    rw [agrees] at reversed
    have ordered : (first : Int) < second ∨ (second : Int) < first :=
      lt_or_gt_of_ne different
    rcases ordered with less | greater
    · exact absurd (reversed.mp less) (Int.lt_asymm less)
    · exact absurd (reversed.mpr greater) (Int.lt_asymm greater)
  · exact formatTime_lt_iff_of_not_clash inRange alsoInRange

theorem Clash.symm
    {first second : Time} (clash : Clash first second) :
    Clash second first :=
  ⟨clash.different.symm, clash.sameSecond.symm, clash.inside.symm⟩

/-- The column holds no timestamp that clashes with the given one. -/
def Comparable (now : Time) (column : Option String) : Prop :=
  ∀ instant, storedTime column = some instant → ¬ Clash now instant

variable {now : Time}

theorem comparable_some_iff
    {column : Option String} {instant : Time}
    (stored : storedTime column = some instant) :
    Comparable now column ↔ ¬ Clash now instant := by
  constructor
  · exact fun comparable => comparable instant stored
  · intro apart other found
    rw [stored] at found
    rw [← Option.some.inj found]
    exact apart

/-- The user's expiry is at or before the given instant. -/
def due (now : Time) (row : UserRow) : Bool :=
  row.status = .active &&
    match storedTime row.expiresAt with
    | some expiry => decide (expiry ≤ now)
    | none => false

/-- The user is active and has no expiry or a later one. -/
def current (now : Time) (row : UserRow) : Bool :=
  row.status = .active &&
    match storedTime row.expiresAt with
    | some expiry => decide (now < expiry)
    | none => true

theorem sweeps_eq_due_iff
    (inRange : FourDigitYear now) {row : UserRow}
    (stamped : Stamped row.expiresAt) :
    Database.sweeps now row = due now row ↔
      (row.status = .active → Comparable now row.expiresAt) := by
  by_cases active : row.status = .active
  · simp only [Database.sweeps, due, active, decide_true, Bool.true_and,
      forall_const]
    rcases stamped.cases with ⟨column, stored⟩ |
      ⟨instant, column, stored, alsoInRange⟩
    · rw [stored, column]
      simp [Comparable, storedTime]
    · rw [stored, column]
      rw [column] at stored
      rw [comparable_some_iff stored,
        ← formatTime_chronological_iff inRange alsoInRange]
      have reversed : (instant : Int) ≤ now ↔ ¬ (now : Int) < instant :=
        not_lt.symm
      by_cases text : formatTime now < formatTime instant <;>
        by_cases later : now < instant <;>
          simp [text, later, reversed]
  · simp [Database.sweeps, due, active]

theorem inForce_eq_current_iff
    (inRange : FourDigitYear now) {row : UserRow}
    (stamped : Stamped row.expiresAt) :
    inForce now row = current now row ↔
      (row.status = .active → Comparable now row.expiresAt) := by
  by_cases active : row.status = .active
  · simp only [inForce, current, active, decide_true, Bool.true_and,
      forall_const]
    rcases stamped.cases with ⟨column, stored⟩ |
      ⟨instant, column, stored, alsoInRange⟩
    · rw [stored, column]
      simp [Comparable, storedTime]
    · rw [stored, column]
      rw [column] at stored
      rw [comparable_some_iff stored,
        ← formatTime_chronological_iff inRange alsoInRange]
      by_cases text : formatTime now < formatTime instant <;>
        by_cases later : now < instant <;> simp [text, later]
  · simp [inForce, current, active]

/-- What the claim of `SweepExpired` is: exactly the users that are due
are swept. -/
def SweepsDue (database : Database) (now : Time) : Prop :=
  (database.sweepExpired now).2 = { database with
    users := updateWhere (due now)
      (fun row => (row.writeStatus .expired).touch now) database.users }

theorem sweepsDue_iff
    (inRange : FourDigitYear now) {database : Database}
    (stamped : ∀ row ∈ database.users, Stamped row.expiresAt) :
    SweepsDue database now ↔
      ∀ row ∈ database.users, row.status = .active →
        Comparable now row.expiresAt := by
  have marks : ∀ row ∈ database.users,
      (row.writeStatus .expired).touch now ≠ row := by
    intro row _ same
    have version := congrArg UserRow.version same
    simp only [UserRow.touch, UserRow.writeStatus] at version
    omega
  have tables : SweepsDue database now ↔
      updateWhere (Database.sweeps now)
          (fun row => (row.writeStatus .expired).touch now)
          database.users =
        updateWhere (due now)
          (fun row => (row.writeStatus .expired).touch now)
          database.users := by
    constructor
    · exact fun same => congrArg Database.users same
    · intro same
      rw [SweepsDue, Database.sweepExpired, same]
  rw [tables, updateWhere_eq_iff marks]
  constructor
  · intro agree row member
    exact (sweeps_eq_due_iff inRange (stamped row member)).mp
      (agree row member)
  · intro comparable row member
    exact (sweeps_eq_due_iff inRange (stamped row member)).mpr
      (comparable row member)

/-- `ListEngineUsers` reads exactly the active users without an expiry or
with a later one, with their active credentials. -/
def ListsCurrent (database : Database) (now : Time) : Prop :=
  ∀ row credential, (row, credential) ∈ database.engineRows now ↔
    row ∈ database.users ∧ current now row = true ∧
      credential ∈ database.credentials ∧
      activeFor row.id credential = true

theorem listsCurrent_iff
    (inRange : FourDigitYear now) {database : Database}
    (stamped : ∀ row ∈ database.users, Stamped row.expiresAt) :
    ListsCurrent database now ↔
      ∀ row ∈ database.users,
        (∃ credential ∈ database.credentials,
          activeFor row.id credential = true) →
        row.status = .active → Comparable now row.expiresAt := by
  constructor
  · rintro lists row member ⟨credential, issued, active⟩
    have agrees := lists row credential
    rw [mem_engineRows] at agrees
    apply (inForce_eq_current_iff inRange (stamped row member)).mp
    rw [Bool.eq_iff_iff]
    simpa [member, issued, active] using agrees
  · intro comparable row credential
    rw [mem_engineRows]
    constructor
    · rintro ⟨member, force, issued, active⟩
      have agree := (inForce_eq_current_iff inRange
        (stamped row member)).mpr
          (comparable row member ⟨credential, issued, active⟩)
      exact ⟨member, agree ▸ force, issued, active⟩
    · rintro ⟨member, isCurrent, issued, active⟩
      have agree := (inForce_eq_current_iff inRange
        (stamped row member)).mpr
          (comparable row member ⟨credential, issued, active⟩)
      exact ⟨member, agree ▸ isCurrent, issued, active⟩

/-- The session's expiry is before the given instant. -/
def lapsed (now : Time) (row : SessionRow) : Bool :=
  match storedTime (some row.expiresAt) with
  | some expiry => decide (expiry < now)
  | none => false

/-- `DeleteExpiredSessions` deletes exactly the sessions that have lapsed. -/
def DeletesLapsed (tables : AdminTables) (now : Time) : Prop :=
  (tables.deleteExpiredSessions now).2 = { tables with
    sessions := deleteWhere (lapsed now) tables.sessions }

theorem deletesLapsed_iff
    (inRange : FourDigitYear now) {tables : AdminTables}
    (stamped : ∀ row ∈ tables.sessions,
      ∃ expiry, row.expiresAt = formatTime expiry ∧
        FourDigitYear expiry) :
    DeletesLapsed tables now ↔
      ∀ row ∈ tables.sessions,
        Comparable now (some row.expiresAt) := by
  have single : ∀ row ∈ tables.sessions,
      (AdminTables.sessionOver now row = lapsed now row ↔
        Comparable now (some row.expiresAt)) := by
    intro row member
    obtain ⟨expiry, written, alsoInRange⟩ := stamped row member
    have stored : storedTime (some row.expiresAt) = some expiry := by
      rw [written, storedTime_some,
        readTime_formatTime alsoInRange.1 alsoInRange.2]
    have comparable := @comparable_some_iff now _ _ stored
    have order := formatTime_chronological_iff alsoInRange inRange
    have symmetric : Clash now expiry ↔ Clash expiry now :=
      ⟨Clash.symm, Clash.symm⟩
    rw [comparable, symmetric, ← order, AdminTables.sessionOver, lapsed,
      stored, written]
    simp only [decide_eq_decide]
  have tablesEqual : DeletesLapsed tables now ↔
      deleteWhere (AdminTables.sessionOver now) tables.sessions =
        deleteWhere (lapsed now) tables.sessions := by
    constructor
    · exact fun same => congrArg AdminTables.sessions same
    · intro same
      rw [DeletesLapsed, AdminTables.deleteExpiredSessions, same]
  rw [tablesEqual, deleteWhere_eq_iff]
  exact forall₂_congr single

/-! ## Last-seen stamps -/

/-- The later of a stored and a new stamp. -/
def latest (stored : Option Time) (new : Time) : Time :=
  match stored with
  | some old => max old new
  | none => new

def UserRow.seen (row : UserRow) (time : Time) : UserRow :=
  { row with lastSeenAt := some (formatTime time) }

theorem seen_eq_seen_iff {row : UserRow} {first second : Time} :
    row.seen first = row.seen second ↔
      formatTime first = formatTime second := by
  simp [UserRow.seen]

theorem eq_seen_iff
    {row : UserRow} {text : String} {time : Time}
    (column : row.lastSeenAt = some text) :
    row = row.seen time ↔ text = formatTime time := by
  constructor
  · intro same
    have stamps := congrArg UserRow.lastSeenAt same
    exact Option.some.inj (column.symm.trans stamps)
  · intro same
    unfold UserRow.seen
    rw [← same, ← column]

/-- The last-seen update of `ApplyDeltas` keeps the maximum. -/
def KeepsLatest (database : Database) (delta : UsageDelta) : Prop :=
  (stampLastSeen delta).run database = .ok { database with
    users := updateWhere (fun row => row.id = delta.userID)
      (fun row => row.seen (latest (storedTime row.lastSeenAt)
        (unixMilli delta.lastSeenUnix))) database.users }

theorem formatTime_inj
    {first second : Time} (inRange : FourDigitYear first)
    (same : formatTime first = formatTime second) : first = second := by
  have read := readTime_formatTime inRange.1 inRange.2
  rw [same] at read
  exact eq_of_readTime_formatTime read

/-- The stamp that is kept of two is the later one exactly if they do not
clash. -/
theorem kept_stamp_iff
    {old new : Time} (inRange : FourDigitYear new)
    (alsoInRange : FourDigitYear old) :
    (if formatTime old < formatTime new then formatTime new
      else formatTime old) = formatTime (max old new) ↔
      ¬ Clash new old := by
  have symmetric : Clash new old ↔ Clash old new :=
    ⟨Clash.symm, Clash.symm⟩
  rw [symmetric, ← formatTime_chronological_iff alsoInRange inRange]
  by_cases text : formatTime old < formatTime new
  · rw [if_pos text]
    by_cases later : (old : Int) < new
    · rw [max_eq_right later.le]
      simp [text, later]
    · rw [max_eq_left (not_lt.mp later)]
      have different : formatTime new ≠ formatTime old := by
        intro same
        rw [same, String.lt_iff] at text
        exact List.lt_irrefl _ text
      simp [text, later, different]
  · rw [if_neg text]
    by_cases later : (old : Int) < new
    · rw [max_eq_right later.le]
      have different : formatTime old ≠ formatTime new := by
        intro same
        have equal : (old : Int) = new :=
          formatTime_inj alsoInRange same
        exact absurd later (by rw [equal]; exact Int.lt_irrefl _)
      simp [text, later, different]
    · rw [max_eq_left (not_lt.mp later)]
      simp [text, later]

theorem keepsLatest_iff
    {database : Database} {delta : UsageDelta}
    (inRange : FourDigitYear (unixMilli delta.lastSeenUnix))
    (stamped : ∀ row ∈ database.users, Stamped row.lastSeenAt) :
    KeepsLatest database delta ↔
      ∀ row ∈ database.users, row.id = delta.userID →
        Comparable (unixMilli delta.lastSeenUnix) row.lastSeenAt := by
  have rows : KeepsLatest database delta ↔
      ∀ row ∈ database.users,
        (if seenBefore delta.userID
              (formatTime (unixMilli delta.lastSeenUnix)) row then
            row.seen (unixMilli delta.lastSeenUnix)
          else row) =
        if decide (row.id = delta.userID) then
          row.seen (latest (storedTime row.lastSeenAt)
            (unixMilli delta.lastSeenUnix))
        else row := by
    rw [← List.map_inj_left]
    constructor
    · exact fun same => congrArg Database.users (Except.ok.inj same)
    · intro same
      exact congrArg (fun users => Except.ok { database with
        users := users }) same
  rw [rows]
  apply forall₂_congr
  intro row member
  by_cases owned : row.id = delta.userID
  · simp only [seenBefore, owned, decide_true, Bool.true_and, if_true,
      forall_const]
    rcases (stamped row member).cases with ⟨column, stored⟩ |
      ⟨old, column, stored, alsoInRange⟩
    · rw [stored, column]
      simp [Comparable, storedTime, latest]
    · rw [stored, comparable_some_iff stored,
        ← kept_stamp_iff inRange alsoInRange, column]
      by_cases text : formatTime old <
          formatTime (unixMilli delta.lastSeenUnix)
      · simp [text, latest, seen_eq_seen_iff]
      · simp [text, latest, eq_seen_iff column]
  · simp [seenBefore, owned]

/-- Every comparison of timestamps in SQL does what the instants ask for
exactly if none of the pairs it compares clash: two instants of the same
second, of which one has fraction digits that begin those of the other. -/
theorem text_order_chronological_iff
    (first second now : Time) (database : Database)
    (tables : AdminTables) (delta : UsageDelta) :
    (FourDigitYear first → FourDigitYear second →
      ((formatTime first < formatTime second ↔ first < second) ↔
        ¬ Clash first second)) ∧
    (FourDigitYear now →
      (∀ row ∈ database.users, Stamped row.expiresAt) →
        (SweepsDue database now ↔
          ∀ row ∈ database.users, row.status = .active →
            Comparable now row.expiresAt)) ∧
    (FourDigitYear now →
      (∀ row ∈ database.users, Stamped row.expiresAt) →
        (ListsCurrent database now ↔
          ∀ row ∈ database.users,
            (∃ credential ∈ database.credentials,
              activeFor row.id credential = true) →
            row.status = .active → Comparable now row.expiresAt)) ∧
    (FourDigitYear now →
      (∀ row ∈ tables.sessions, ∃ expiry,
        row.expiresAt = formatTime expiry ∧ FourDigitYear expiry) →
        (DeletesLapsed tables now ↔
          ∀ row ∈ tables.sessions,
            Comparable now (some row.expiresAt))) ∧
    (FourDigitYear (unixMilli delta.lastSeenUnix) →
      (∀ row ∈ database.users, Stamped row.lastSeenAt) →
        (KeepsLatest database delta ↔
          ∀ row ∈ database.users, row.id = delta.userID →
            Comparable (unixMilli delta.lastSeenUnix)
              row.lastSeenAt)) :=
  ⟨fun inRange alsoInRange =>
      formatTime_chronological_iff inRange alsoInRange,
    fun inRange stamped => sweepsDue_iff inRange stamped,
    fun inRange stamped => listsCurrent_iff inRange stamped,
    fun inRange stamped => deletesLapsed_iff inRange stamped,
    fun inRange stamped => keepsLatest_iff inRange stamped⟩

/-- Half a second later, and smaller as text. -/
theorem half_second_before_whole_second :
    FourDigitYear 0 ∧ FourDigitYear 500000000 ∧
      ¬ (formatTime 0 < formatTime 500000000 ↔
        (0 : Time) < 500000000) := by
  have years : (dateOfTime 0).year = 1970 ∧
      (dateOfTime 500000000).year = 1970 := by
    decide
  refine ⟨?_, ?_, by decide⟩
  · unfold FourDigitYear
    omega
  · unfold FourDigitYear
    omega

end Xoxproxy
