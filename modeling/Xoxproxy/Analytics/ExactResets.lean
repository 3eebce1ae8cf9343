import Xoxproxy.Analytics.Lifetimes

/-!
# Quota resets

A reset deletes the rows of a user from today and from this month on.  It
removes the rows of the current window and nothing else, and traffic from
before it never comes back, as long as the user's earlier traffic has been
flushed and there are no rows of later periods.
-/

namespace Xoxproxy.Analytics

open AssociationMaps RowTables Transactions Tallies

/-- The two rows of the current window. -/
def windowRows (id : Int) (time : Time) : List RowKey :=
  [.usage id (formatDay time) "day", .usage id (formatMonth time) "month"]

def Reset.rows (reset : Reset) : List RowKey :=
  windowRows reset.userID reset.time

/-- The rows of the window are gone, and nothing else has changed. -/
def Reset.Spares (reset : Reset) : Prop :=
  reset.after = { reset.before with
    usagePeriods :=
      deleteWhere (fun row => reset.rows.contains (usageRowKey row))
        reset.before.usagePeriods }

/-- The user has no rows of days behind today, or of months behind this
month. -/
def NothingLater (id : Int) (time : Time) (database : Database) : Prop :=
  ∀ row ∈ database.usagePeriods, row.userID = id →
    (row.granularity = "day" → ¬formatDay time < row.periodStart) ∧
      (row.granularity = "month" → ¬formatMonth time < row.periodStart)

instance (id : Int) (time : Time) (database : Database) :
    Decidable (NothingLater id time database) :=
  inferInstanceAs (Decidable (∀ row ∈ database.usagePeriods, _))

theorem starts_iff {period start : String} (within : ¬start < period) :
    ¬period < start ↔ period = start := by
  constructor
  · intro after
    exact String.le_antisymm (String.not_lt.mp within) (String.not_lt.mp after)
  · rintro rfl
    exact within

theorem resetGone_usage_iff {id userID : Int} {time : Time}
    {period granularity : String} :
    Pipeline.resetGone id time (.usage userID period granularity) = true ↔
      userID = id ∧ (granularity = "day" ∧ ¬period < formatDay time ∨
        granularity = "month" ∧ ¬period < formatMonth time) := by
  simp only [Pipeline.resetGone, Bool.and_eq_true, Bool.or_eq_true,
    Bool.not_eq_true', decide_eq_true_iff, decide_eq_false_iff_not]

theorem contains_windowRows_iff {id userID : Int} {time : Time}
    {period granularity : String} :
    (windowRows id time).contains (.usage userID period granularity) = true ↔
      userID = id ∧ (granularity = "day" ∧ period = formatDay time ∨
        granularity = "month" ∧ period = formatMonth time) := by
  simp only [windowRows, List.contains_iff_mem, List.mem_cons, RowKey.usage.injEq,
    List.not_mem_nil, or_false]
  tauto

/-- With nothing later a reset removes the window only. -/
theorem resetGone_eq_contains {id : Int} {time : Time}
    {database : Database} (nothing : NothingLater id time database)
    {row : UsageRow} (listed : row ∈ database.usagePeriods) :
    Pipeline.resetGone id time (usageRowKey row) =
      (windowRows id time).contains (usageRowKey row) := by
  rw [Bool.eq_iff_iff, usageRowKey, resetGone_usage_iff,
    contains_windowRows_iff]
  refine and_congr_right fun owner => ?_
  have within := nothing row listed owner
  exact or_congr
    (and_congr_right fun day => starts_iff (within.1 day))
    (and_congr_right fun month => starts_iff (within.2 month))

theorem spares_of_reset {id : Int} {time : Time}
    {database after : Database} (nothing : NothingLater id time database)
    (done : executeAll
      (resetUsageStatements id (formatDay time) (formatMonth time))
      database = .ok after) (moment : Nat) :
    Reset.Spares ⟨id, time, moment, database, after⟩ := by
  have cleared := (clears_resetUsage done).usage
  have same : deleteWhere (fun row => Pipeline.resetGone id time
      (usageRowKey row)) database.usagePeriods =
        deleteWhere (fun row => (windowRows id time).contains
          (usageRowKey row)) database.usagePeriods := by
    apply List.filter_congr
    intro row listed
    exact congrArg Bool.not (resetGone_eq_contains nothing listed)
  change after = { database with usagePeriods := deleteWhere _ _ }
  rw [Reset.rows, ← same, ← cleared, ← Except.ok.inj done]

/-- The rows of a window are among those that its reset removes. -/
theorem gone_of_mem_windowRows {id : Int} {time : Time} {key : RowKey}
    (listed : key ∈ windowRows id time) :
    key.userID = id ∧ Pipeline.resetGone id time key = true := by
  rcases List.mem_cons.mp listed with rfl | month
  · exact ⟨rfl, resetGone_usage_iff.mpr
      ⟨rfl, .inl ⟨rfl, String.lt_irrefl _⟩⟩⟩
  · rw [List.mem_singleton.mp month]
    exact ⟨rfl, resetGone_usage_iff.mpr
      ⟨rfl, .inr ⟨rfl, String.lt_irrefl _⟩⟩⟩

/-- A reset removed the window and nothing else, and whatever is booked in
its window now was logged since. -/
structure ExactReset (trace : Trace) (reset : Reset) : Prop where
  spares : reset.Spares
  later : ∀ booking ∈ trace.ledger, booking.1 ∈ reset.rows →
    reset.moment ≤ trace.logged booking.2

/-- The accounts and the moments of the resets. -/
def Trace.resetMarks (trace : Trace) : List (Int × Nat) :=
  trace.resets.map fun reset => (reset.userID, reset.moment)

section Resetting

variable [Build] {options : Options} {start : Nat} {s after : Pipeline}
variable {action : PipelineAction}

/-- The target and the time of a reset that a step performs. -/
def Pipeline.resetBy (s : Pipeline) : PipelineAction → Option (Int × Time)
  | .resetUsage id time failure =>
      if (transact failure
          (resetUsageStatements id (formatDay time) (formatMonth time))
          s.host.database).1.isOk then some (id, time)
      else none
  | _ => none

/-- When usage is reset, the account has been issued, no record of it is on
its way, and there are no rows of it that are later than the window. -/
def ResetsFlushed (options : Options) (s : Pipeline)
    (action : PipelineAction) : Prop :=
  ∀ target ∈ s.resetBy action,
    target.1 ≤ s.host.database.userSequence ∧
      (∀ entry ∈ s.onTheWay options,
        (target.1, entry.record.username) ∉ accounts s.host.database) ∧
      NothingLater target.1 target.2 s.host.database

instance (options : Options) (s : Pipeline) (action : PipelineAction) :
    Decidable (ResetsFlushed options s action) :=
  inferInstanceAs (Decidable (∀ target ∈ s.resetBy action, _))

omit [Build] in
theorem add_resets (trace : Trace) (entry : Entry) (slot : DestKey) :
    (trace.add entry slot).resets = trace.resets := by
  rw [trace.add_eq entry slot]

theorem resets_of_move (move : Move options s action after)
    (other : ∀ id time failure, action ≠ .resetUsage id time failure) :
    after.trace.resets = s.trace.resets := by
  cases move with
  | reset id time failure => exact absurd rfl (other id time failure)
  | direct | receive => exact add_resets _ _ _
  | _ => rfl

/-- A step resets nothing, or it performs a reset. -/
theorem reset_cases (options : Options) (s : Pipeline)
    (action : PipelineAction) :
    (s.act options action).trace.resets = s.trace.resets ∨
      ∃ id time database, s.resetBy action = some (id, time) ∧
        executeAll
          (resetUsageStatements id (formatDay time) (formatMonth time))
          s.host.database = .ok database ∧
        s.act options action =
          { s.withDatabase database with
            trace := { s.trace.remove (Pipeline.resetGone id time) with
              resets := s.trace.resets ++
                [⟨id, time, s.trace.now, s.host.database, database⟩] } } := by
  cases action with
  | resetUsage id time failure =>
      simp only [Pipeline.resetBy, Pipeline.act, Pipeline.resetUsage]
      rcases @transact_cases Database GoError failure
          (resetUsageStatements id (formatDay time) (formatMonth time))
          s.host.database with
        ⟨error, failed⟩ | ⟨after, committed, done⟩
      · rw [failed]
        exact .inl rfl
      · rw [committed]
        exact .inr ⟨id, time, after, if_pos rfl, done, rfl⟩
  | _ => exact .inl (resets_of_move (move_act _) fun _ _ _ => (by simp))

omit [Build] in
theorem userID_of_mem_rowsOf {id : Int} {posting : Posting} {key : RowKey}
    (counted : key ∈ Trace.rowsOf id posting) : key.userID = id := by
  simp only [Trace.rowsOf, List.mem_cons, List.not_mem_nil, or_false]
    at counted
  rcases counted with rfl | rfl | rfl <;> rfl

/-- What is booked behind a step was booked before, or is a record that was
on its way to an account that is there. -/
theorem Chronicle.booked (chronicle : Chronicle options s)
    (move : Move options s action after) {booking : RowKey × Entry}
    (listed : booking ∈ after.trace.ledger) :
    booking ∈ s.trace.ledger ∨
      (booking.1.userID, booking.2.record.username) ∈
          accounts s.host.database ∧
        booking.2 ∈ s.onTheWay options := by
  cases move with
  | commit choice resolution database resolving finished done =>
      have split := commit_ledger s.trace resolution
      have listed' : booking ∈ s.trace.ledger ++
          (chargesOf resolution.idOf s.trace.batch).flatMap chargeRows :=
        split ▸ listed
      refine (List.mem_append.mp listed').imp_right fun new => ?_
      obtain ⟨start, held, -⟩ := chronicle.held
      obtain ⟨charge, charged, row⟩ := List.mem_flatMap.mp new
      have known := charge_onTheWay held chronicle.resolves resolving
        finished done charged
      obtain ⟨key, counted, rfl⟩ := List.mem_map.mp row
      rw [userID_of_mem_rowsOf counted]
      exact known
  | store | reset | prune => exact .inl (List.mem_filter.mp listed).1
  | direct | receive =>
      rw [← add_ledger]
      exact .inl listed
  | _ => exact .inl listed

/-- What is booked is in the log. -/
theorem Chronicle.booked_logged (chronicle : Chronicle options s)
    {booking : RowKey × Entry} (listed : booking ∈ s.trace.ledger) :
    booking.2 ∈ logEntries s.log := by
  have balanced := (Kept.grounded chronicle.held).balanced
  obtain ⟨charge, charged, row⟩ :=
    List.mem_flatMap.mp (balanced.rows.subset listed)
  obtain ⟨key, -, rfl⟩ := List.mem_map.mp row
  exact (chronicle.owned charge charged).logged

theorem ExactReset.move {reset : Reset} (exact : ExactReset s.trace reset)
    (chronicle : Chronicle options s)
    (marked : Marked options s.trace.resetMarks s)
    (listed : reset ∈ s.trace.resets)
    (move : Move options s action after) :
    ExactReset after.trace reset := by
  obtain ⟨start, held, -⟩ := chronicle.held
  refine ⟨exact.spares, fun booking booked inWindow => ?_⟩
  rcases chronicle.booked move booked with old | ⟨owner, waits⟩
  · rw [chronicle.clocked.logged_old move (chronicle.booked_logged old)]
    exact exact.later booking old inWindow
  · rw [chronicle.clocked.logged_old move (held.logged_onTheWay waits)]
    rw [(gone_of_mem_windowRows inWindow).1] at owner
    have mark : (reset.userID, reset.moment) ∈ s.trace.resetMarks :=
      List.mem_map.mpr ⟨reset, listed, rfl⟩
    exact marked.waits _ mark _ waits owner

/-- What holds as long as usage is reset behind a flush. -/
structure Flushed (options : Options) (s : Pipeline) : Prop where
  chronicle : Chronicle options s
  marked : Marked options s.trace.resetMarks s
  exact : ∀ reset ∈ s.trace.resets, ExactReset s.trace reset

theorem Flushed.step (flushed : Flushed options s)
    (allowed : ResetsFlushed options s action) :
    Flushed options (s.act options action).tick := by
  have move : Move options s action (s.act options action) := move_act action
  have chronicle := flushed.chronicle
  obtain ⟨start, held, -⟩ := chronicle.held
  have marked := flushed.marked.step held chronicle.clocked move
  have kept : ∀ reset ∈ s.trace.resets,
      ExactReset (s.act options action).tick.trace reset := by
    intro reset listed
    have exact := (flushed.exact reset listed).move chronicle flushed.marked
      listed move
    exact ⟨exact.spares, exact.later⟩
  rcases reset_cases options s action with
    same | ⟨id, time, database, performed, done, made⟩
  · refine ⟨chronicle.move move, ?_, ?_⟩
    · change Marked options ((s.act options action).trace.resets.map _) _
      rw [same]
      exact marked
    · change ∀ reset ∈ (s.act options action).trace.resets, _
      rw [same]
      exact kept
  obtain ⟨issued, apart, nothing⟩ := allowed _ performed
  have resets : (s.act options action).trace.resets = s.trace.resets ++
      [⟨id, time, s.trace.now, s.host.database, database⟩] := by
    rw [made]
  have clears := clears_resetUsage done
  refine ⟨chronicle.move move, ?_, ?_⟩
  · change Marked options ((s.act options action).trace.resets.map _) _
    rw [resets, List.map_append]
    refine marked.append ⟨?_, ?_, ?_⟩
    · rw [made]
      exact List.forall_mem_singleton.mpr (clears.sequence.symm ▸ issued)
    · rw [made]
      exact List.forall_mem_singleton.mpr (Nat.le_succ _)
    · have cursor : (s.act options action).cursor options =
          s.cursor options := by
        refine cursor_of_same ?_
        rw [made]
        exact clears.cursor
      have way : (s.act options action).onTheWay options =
          s.onTheWay options := by
        rw [Pipeline.onTheWay, cursor, made]
        rfl
      have same : accounts (s.act options action).host.database =
          accounts s.host.database := by
        rw [made, accounts, accounts, ← clears.users]
        rfl
      refine List.forall_mem_singleton.mpr fun entry waits owner => ?_
      exact absurd (same ▸ owner) (apart entry (way ▸ waits))
  · change ∀ reset ∈ (s.act options action).trace.resets, _
    rw [resets]
    refine List.forall_mem_append.mpr ⟨kept, ?_⟩
    refine List.forall_mem_singleton.mpr
      ⟨spares_of_reset nothing done _, fun booking booked inWindow => ?_⟩
    rw [made] at booked
    have spared := (List.mem_filter.mp booked).2
    rw [(gone_of_mem_windowRows inWindow).2] at spared
    cases spared

theorem flushed_initial (options : Options) :
    Flushed options (Pipeline.initial options) where
  chronicle := chronicle_initial options
  marked := marked_nil options _
  exact := fun _ listed => (by cases listed)

theorem flushed_run {actions : List PipelineAction}
    (behind : Runs.Meets (Pipeline.step options) (ResetsFlushed options)
      actions (Pipeline.initial options)) :
    Flushed options (Runs.run (Pipeline.step options) actions
      (Pipeline.initial options)) :=
  Runs.invariant_of_meets (fun _ _ here allowed => here.step allowed)
    (flushed_initial options) behind

/-- A row of the window that is there again holds a record logged since. -/
theorem Flushed.logged_since (flushed : Flushed options s) {reset : Reset}
    (listed : reset ∈ s.trace.resets) {row : RowKey}
    (inWindow : row ∈ reset.rows)
    (there : amountAt s.host.database row ≠ 0) :
    ∃ booking ∈ s.trace.ledger, booking.1 = row ∧
      reset.moment ≤ s.trace.logged booking.2 := by
  have balanced := (Kept.grounded flushed.chronicle.held).balanced
  by_contra none
  push Not at none
  refine there ((balanced.amounts row).trans (tally_apply_eq_zero ?_))
  intro booking booked same
  obtain ⟨⟨key, entry⟩, ledger, rfl⟩ := List.mem_map.mp booked
  have window : key ∈ reset.rows :=
    (show key = row from same) ▸ inWindow
  have late := (flushed.exact reset listed).later _ ledger window
  exact absurd late (Nat.not_le.mpr (none _ ledger same))

/-- Every reset so far is exact, and a row of its window that is there again
holds records logged since.  As long as the figures of the log stay in range,
the rows amount to what is booked in them. -/
structure ResetsExact (s : Pipeline) : Prop where
  resets : ∀ reset ∈ s.trace.resets, ExactReset s.trace reset
  amounts : LogFits s.log → ∀ key, amountAt s.host.database key =
    tally (ledgerBookings s.trace.ledger) key
  window : ∀ reset ∈ s.trace.resets, ∀ row ∈ reset.rows,
    amountAt s.host.database row ≠ 0 →
      ∃ booking ∈ s.trace.ledger, booking.1 = row ∧
        reset.moment ≤ s.trace.logged booking.2

/-- Quota resets are exact in every run in which the traffic of a user has
been flushed before its usage is reset and no rows lie behind the current
window, whatever the goroutines, restarts and the other clients of the
store do before and after. -/
theorem resets_exact (options : Options) (actions : List PipelineAction)
    (behind : Runs.Meets (Pipeline.step options) (ResetsFlushed options)
      actions (Pipeline.initial options)) :
    ResetsExact (Runs.run (Pipeline.step options) actions
      (Pipeline.initial options)) := by
  have held := flushed_run behind
  have balanced := (Kept.grounded held.chronicle.held).balanced
  exact ⟨held.exact, fun _ => balanced.amounts,
    fun _ listed _ inWindow there => held.logged_since listed inWindow there⟩

/-- A reset removed the two rows of its window and nothing else, and these
have stayed away until traffic was charged that was logged behind it. -/
structure ResetKept (s : Pipeline) (reset : Reset) : Prop where
  spares : reset.Spares
  away : ∀ row ∈ reset.rows, amountAt s.host.database row ≠ 0 →
    ∃ charge ∈ s.trace.applied, charge.1 = reset.userID ∧
      row ∈ Trace.rowsOf charge.1 charge.2 ∧
        reset.moment ≤ s.trace.logged charge.2.entry

/-- A quota reset is exact as long as the user's records have been flushed
when it comes, and no rows are later than its window. -/
theorem quota_reset_kept (options : Options) (actions : List PipelineAction)
    (behind : Runs.Meets (Pipeline.step options) (ResetsFlushed options)
      actions (Pipeline.initial options)) :
    ∀ reset ∈ (Runs.run (Pipeline.step options) actions
        (Pipeline.initial options)).trace.resets,
      ResetKept (Runs.run (Pipeline.step options) actions
        (Pipeline.initial options)) reset := by
  intro reset listed
  have held := flushed_run behind
  have balanced := (Kept.grounded held.chronicle.held).balanced
  refine ⟨(held.exact reset listed).spares, fun row inWindow there => ?_⟩
  obtain ⟨booking, booked, same, late⟩ :=
    held.logged_since listed inWindow there
  obtain ⟨charge, charged, made⟩ :=
    List.mem_flatMap.mp (balanced.rows.subset booked)
  obtain ⟨key, counted, rfl⟩ := List.mem_map.mp made
  have row_eq : key = row := same
  rw [row_eq] at counted
  refine ⟨charge, charged, ?_, counted, late⟩
  rw [← userID_of_mem_rowsOf counted]
  exact (gone_of_mem_windowRows inWindow).1

end Resetting

/-- Traffic, a flush, a reset in its window, and traffic again. -/
def resetBetween : List PipelineAction :=
  let traffic := .append (bytesOf (connectionLine "alice" "a.example")) ::
    tailerPass 1 ++ flushPass 1 1
  createAccount "alice" :: traffic ++
    .resetUsage 1 (1760380800 * 1000000000) none :: traffic

theorem resetBetween_flushed :
    Runs.Meets (@Pipeline.step Build.dev sampleOptions)
        (@ResetsFlushed Build.dev sampleOptions) resetBetween
        (Pipeline.initial sampleOptions) ∧
      let s := Runs.run (@Pipeline.step Build.dev sampleOptions)
        resetBetween (Pipeline.initial sampleOptions)
      @LogFits Build.dev s.log ∧ s.trace.resets ≠ [] := by
  decide +kernel

theorem resets_exact_of_flushed :
    let s := Runs.run (@Pipeline.step Build.dev sampleOptions) resetBetween
      (Pipeline.initial sampleOptions)
    @LogFits Build.dev s.log ∧ @ResetsExact Build.dev s :=
  ⟨resetBetween_flushed.2.1,
    @resets_exact Build.dev sampleOptions resetBetween
      resetBetween_flushed.1⟩

theorem quota_reset_kept_of_flushed :
    let s := Runs.run (@Pipeline.step Build.dev sampleOptions) resetBetween
      (Pipeline.initial sampleOptions)
    s.trace.resets ≠ [] ∧
      ∀ reset ∈ s.trace.resets, ResetKept s reset :=
  ⟨resetBetween_flushed.2.2,
    @quota_reset_kept Build.dev sampleOptions resetBetween
      resetBetween_flushed.1⟩

/-- A reset while the user's record still waits in the queue. -/
def resetAhead : List PipelineAction :=
  [createAccount "alice",
    .append (bytesOf (connectionLine "alice" "a.example"))] ++
    tailerPass 1 ++
    .resetUsage 1 (1760380800 * 1000000000) none :: flushPass 1 1

/-- The state in which that ends. -/
def returned : Pipeline :=
  Runs.run (@Pipeline.step Build.dev sampleOptions) resetAhead
    (Pipeline.initial sampleOptions)

theorem returned_logged_before :
    ∃ reset ∈ returned.trace.resets, ∃ row ∈ reset.rows,
      amountAt returned.host.database row ≠ 0 ∧
        ∀ charge ∈ returned.trace.applied,
          returned.trace.logged charge.2.entry < reset.moment := by
  decide +kernel

/-- Traffic that was logged before the reset is in its window again. -/
theorem reset_undone :
    ¬ ∀ actions, ∀ reset ∈ (Runs.run (@Pipeline.step Build.dev sampleOptions)
        actions (Pipeline.initial sampleOptions)).trace.resets,
      ResetKept (Runs.run (@Pipeline.step Build.dev sampleOptions) actions
        (Pipeline.initial sampleOptions)) reset := by
  intro always
  obtain ⟨reset, listed, row, inWindow, there, early⟩ :=
    returned_logged_before
  obtain ⟨charge, charged, -, -, late⟩ :=
    (always resetAhead reset listed).away row inWindow there
  exact absurd late (Nat.not_le.mpr (early charge charged))

end Xoxproxy.Analytics
