import Xoxproxy.Analytics.Accounts
import Xoxproxy.Analytics.Charges

/-!
# What the rows amount to

In every state of a run, a row of the traffic tables amounts to what the
run's history has booked under its key.
-/

namespace Xoxproxy.Analytics

open AssociationMaps RowTables Transactions Tallies

section Rows

variable {Row Key Other Amount : Type}
variable {column : Row → Key} {rows : List Row}

theorem unique_of_injective
    {image : Key → Other} (injective : Function.Injective image)
    (unique : Unique column rows) :
    Unique (fun row => image (column row)) rows := by
  have mapped := List.Nodup.map injective unique
  rw [List.map_map] at mapped
  exact mapped

variable [DecidableEq Key]

theorem lookup_of_injective
    [DecidableEq Other]
    {image : Key → Other} (injective : Function.Injective image)
    (value : Key) :
    lookup (fun row => image (column row)) rows (image value) =
      lookup column rows value := by
  rw [lookup, lookup]
  apply List.find?_congr
  intro row _
  simp [injective.eq_iff]

/-- Rows with unique keys amount, under a key, to the row found there. -/
theorem tally_rows [AddCommMonoid Amount]
    (amount : Row → Amount) (unique : Unique column rows) (value : Key) :
    tally (rows.map fun row => (column row, amount row)) value =
      ((lookup column rows value).map amount).getD 0 := by
  induction rows with
  | nil => rfl
  | cons row rest inductionHypothesis =>
      obtain ⟨fresh, restUnique⟩ := List.nodup_cons.mp unique
      rw [List.map_cons, tally_cons, Finsupp.add_apply,
        Finsupp.single_apply, inductionHypothesis restUnique]
      by_cases same : column row = value
      · have absent : lookup column rest value = none := by
          rw [lookup_eq_none_iff]
          intro other member equal
          exact fresh (List.mem_map.mpr ⟨other, member, by
            rw [equal, same]⟩)
        rw [absent]
        simp [lookup, same]
      · simp [lookup, same]

end Rows

/-- The rows of both traffic tables, as bookings. -/
def databaseBookings (database : Database) : List (RowKey × Counters) :=
  database.usagePeriods.map (fun row =>
      (usageRowKey row, usageRowCounters row)) ++
    database.destinationStats.map fun row =>
      (destinationRowKey row, destinationRowCounters row)

def usageImage (key : Int × String × String) : RowKey :=
  .usage key.1 key.2.1 key.2.2

def destinationImage (key : Int × String × String × Int × String) :
    RowKey :=
  .destination key.1 key.2.1 ⟨key.2.2.1, key.2.2.2.1, key.2.2.2.2⟩

theorem usageImage_injective : Function.Injective usageImage := by
  rintro ⟨id, period, sort⟩ ⟨other, start, granularity⟩ same
  simpa [usageImage] using same

theorem destinationImage_injective :
    Function.Injective destinationImage := by
  rintro ⟨id, day, host, port, protocol⟩
    ⟨other, date, name, number, sort⟩ same
  simpa [destinationImage] using same

theorem tally_databaseBookings
    {database : Database} (consistent : TrafficConsistent database)
    (key : RowKey) :
    tally (databaseBookings database) key = amountAt database key := by
  have usage := tally_rows usageRowCounters
    (unique_of_injective usageImage_injective consistent.usageKeys) key
  have destinations := tally_rows destinationRowCounters
    (unique_of_injective destinationImage_injective
      consistent.destinationKeys) key
  rw [databaseBookings, tally_append, Finsupp.add_apply]
  refine (congrArg₂ (· + ·) usage destinations).trans ?_
  cases key with
  | usage userID period granularity =>
      have found := @lookup_of_injective _ _ _ UsageRow.key
        database.usagePeriods _ _ _ usageImage_injective
        (userID, period, granularity)
      have none : lookup (fun row => destinationImage row.key)
          database.destinationStats (.usage userID period granularity) =
            none := by
        rw [lookup_eq_none_iff]
        exact fun row _ same => (by cases same)
      rw [none, Option.map_none, Option.getD_none, add_zero]
      exact congrArg (fun row : Option UsageRow =>
        (row.map usageRowCounters).getD 0) found
  | destination userID day slot =>
      have found := @lookup_of_injective _ _ _ DestinationRow.key
        database.destinationStats _ _ _ destinationImage_injective
        (userID, day, slot.host, slot.port, slot.protocol)
      have none : lookup (fun row => usageImage row.key)
          database.usagePeriods (.destination userID day slot) =
            none := by
        rw [lookup_eq_none_iff]
        exact fun row _ same => (by cases same)
      rw [none, Option.map_none, Option.getD_none, zero_add]
      exact congrArg (fun row : Option DestinationRow =>
        (row.map destinationRowCounters).getD 0) found

/-! ## The books of a run -/

/-- What the history of a run has booked. -/
def ledgerBookings (ledger : List (RowKey × Entry)) :
    List (RowKey × Counters) :=
  ledger.map fun booking => (booking.1, rowAmount booking.1 booking.2)

theorem ledgerBookings_append (first second : List (RowKey × Entry)) :
    ledgerBookings (first ++ second) =
      ledgerBookings first ++ ledgerBookings second :=
  List.map_append

/-- The rows in which a charge is counted, with its record. -/
def chargeRows (charge : Int × Posting) : List (RowKey × Entry) :=
  (Trace.rowsOf charge.1 charge.2).map fun key => (key, charge.2.entry)

theorem ledgerBookings_chargeRows (charges : List (Int × Posting)) :
    ledgerBookings (charges.flatMap chargeRows) =
      charges.flatMap chargeBookings := by
  rw [ledgerBookings, List.map_flatMap]
  apply List.flatMap_congr
  intro charge _
  rw [chargeRows, List.map_map]
  rfl

theorem tally_ledger_filter
    (keep : RowKey → Bool) (ledger : List (RowKey × Entry))
    (key : RowKey) :
    tally (ledgerBookings (ledger.filter fun booking => keep booking.1))
        key =
      if keep key then tally (ledgerBookings ledger) key else 0 := by
  rw [← tally_filter_apply, ledgerBookings, ledgerBookings,
    List.filter_map]
  rfl

theorem commit_ledger
    (trace : Trace) (resolution : Resolution) :
    (trace.commit resolution.idOf resolution.usage resolution.dests).ledger =
      trace.ledger ++
        (chargesOf resolution.idOf trace.batch).flatMap chargeRows := rfl

theorem commit_applied (trace : Trace) (resolution : Resolution) :
    (trace.commit resolution.idOf resolution.usage resolution.dests).applied =
      trace.applied ++ chargesOf resolution.idOf trace.batch := rfl

theorem commit_committed (trace : Trace) (resolution : Resolution) :
    (trace.commit resolution.idOf resolution.usage
        resolution.dests).committed =
      trace.committed ++ chargesOf resolution.idOf trace.batch := rfl

/-- The tables are consistent, every row amounts to what was booked under
its key, and what was booked are charges that flushes have committed. -/
structure Balanced (s : Pipeline) : Prop where
  users : Consistent s.host.database
  traffic : TrafficConsistent s.host.database
  amounts : ∀ key,
    amountAt s.host.database key = tally (ledgerBookings s.trace.ledger) key
  rows : s.trace.ledger.Sublist (s.trace.applied.flatMap chargeRows)
  applied : s.trace.committed <:+ s.trace.applied

theorem balanced_initial (options : Options) :
    Balanced (Pipeline.initial options) where
  users := consistent_empty
  traffic := trafficConsistent_empty
  amounts := by
    intro key
    cases key <;> rfl
  rows := .refl _
  applied := List.suffix_refl _

theorem Balanced.of_same {s after : Pipeline} (balanced : Balanced s)
    (database : after.host.database = s.host.database)
    (ledger : after.trace.ledger = s.trace.ledger)
    (applied : after.trace.applied = s.trace.applied)
    (committed : after.trace.committed = s.trace.committed ∨
      after.trace.committed = []) : Balanced after := by
  refine ⟨?_, ?_, ?_, ?_, ?_⟩
  · rw [database]
    exact balanced.users
  · rw [database]
    exact balanced.traffic
  · rw [database, ledger]
    exact balanced.amounts
  · rw [ledger, applied]
    exact balanced.rows
  · rw [applied]
    rcases committed with same | gone
    · rw [same]
      exact balanced.applied
    · rw [gone]
      exact List.nil_suffix

theorem Balanced.tick {s : Pipeline} (balanced : Balanced s) :
    Balanced s.tick :=
  balanced.of_same rfl rfl rfl (.inl rfl)

theorem add_ledger (trace : Trace) (entry : Entry) (slot : DestKey) :
    (trace.add entry slot).ledger = trace.ledger := by
  rw [trace.add_eq entry slot]

theorem add_applied (trace : Trace) (entry : Entry) (slot : DestKey) :
    (trace.add entry slot).applied = trace.applied := by
  rw [trace.add_eq entry slot]

theorem add_committed (trace : Trace) (entry : Entry) (slot : DestKey) :
    (trace.add entry slot).committed = trace.committed := by
  rw [trace.add_eq entry slot]

/-- Rows are removed together with what was booked under their keys. -/
theorem Balanced.clear {s after : Pipeline} (balanced : Balanced s)
    {gone : RowKey → Bool}
    (clears : Clears s.host.database after.host.database gone)
    (ledger : after.trace.ledger =
      s.trace.ledger.filter fun booking => !gone booking.1)
    (applied : after.trace.applied = s.trace.applied)
    (committed : after.trace.committed = s.trace.committed) :
    Balanced after where
  users := balanced.users.of_same_users clears.users clears.sequence
    clears.credentials
  traffic := clears.traffic balanced.traffic
  amounts := by
    intro key
    have removed := removes_deleteWhere balanced.traffic clears.usage
      clears.destinations
    rw [removed.amounts, ledger,
      tally_ledger_filter (fun key => !gone key), ← balanced.amounts]
    cases gone key <;> rfl
  rows := by
    rw [ledger, applied]
    exact List.filter_sublist.trans balanced.rows
  applied := by
    rw [applied, committed]
    exact balanced.applied

theorem Balanced.commit {s after : Pipeline} (balanced : Balanced s)
    (charged : Charged s) {cursor : LogCursor}
    {resolution : Resolution} {database : Database}
    (resolving : s.loop = .resolving resolution)
    (finished : resolution.remaining = [])
    (done : executeAll
      (applyDeltasStatements resolution.usage resolution.dests cursor)
      s.host.database = .ok database)
    (result : after.host.database = database)
    (trace : after.trace = s.trace.commit resolution.idOf
      resolution.usage resolution.dests) :
    Balanced after := by
  obtain ⟨books, -⟩ := books_applyDeltas done
  have only : TrafficOnly s.host.database database :=
    executeAll_preserves TrafficOnly.refl
      (fun early late => early.trans late)
      (fun statement member _ _ ran => trafficOnly_statement member ran)
      done
  refine ⟨?_, ?_, ?_, ?_, ?_⟩
  · rw [result]
    exact only.consistent balanced.users
  · rw [result]
    exact books.consistent balanced.traffic
  · intro key
    rw [result, books.amounts, balanced.amounts,
      charged.tally_batch resolving finished, trace, commit_ledger,
      ledgerBookings_append, tally_append, Finsupp.add_apply,
      ledgerBookings_chargeRows]
  · rw [trace, commit_ledger, commit_applied, List.flatMap_append]
    exact balanced.rows.append (.refl _)
  · rw [trace, commit_applied, commit_committed]
    obtain ⟨earlier, split⟩ := balanced.applied
    exact ⟨earlier, by rw [← List.append_assoc, split]⟩

section Preservation

variable [Build] {options : Options} {s after : Pipeline}
variable {action : PipelineAction}

theorem Balanced.store (balanced : Balanced s)
    (op : UserOp) (choice : UserChoice) :
    Balanced (s.storeOp op choice) where
  users := balanced.users.handle op choice
  traffic :=
    (accountChange_handle s.host op choice).traffic balanced.traffic
  amounts := by
    intro key
    have change := accountChange_handle s.host op choice
    have traffic := change.traffic balanced.traffic
    rw [Pipeline.storeOp, Trace.observe]
    dsimp only
    rw [tally_ledger_filter fun key => decide (key.userID ∈
      (s.host.handle op choice).2.database.users.map UserRow.id)]
    by_cases there : key.userID ∈
        (s.host.handle op choice).2.database.users.map UserRow.id
    · rw [if_pos (by simpa using there), ← balanced.amounts]
      exact change.amounts balanced.traffic there
    · rw [if_neg (by simpa using there)]
      exact amountAt_of_absent traffic there
  rows := List.filter_sublist.trans balanced.rows
  applied := balanced.applied

theorem Balanced.move (balanced : Balanced s) (charged : Charged s)
    (move : Move options s action after) : Balanced after := by
  cases move with
  | store op choice => exact balanced.store op choice
  | reset id time failure database done =>
      exact balanced.clear (clears_resetUsage done) rfl rfl rfl
  | prune time failed =>
      exact balanced.clear (clears_prune _) rfl rfl rfl
  | commit choice resolution database resolving finished done =>
      exact balanced.commit charged resolving finished done rfl rfl
  | direct | receive =>
      exact balanced.of_same rfl (add_ledger _ _ _) (add_applied _ _ _)
        (.inl (add_committed _ _ _))
  | restart => exact balanced.of_same rfl rfl rfl (.inr rfl)
  | _ => exact balanced.of_same rfl rfl rfl (.inl rfl)

end Preservation

/-- The actions around the pipeline that remove rows. -/
def PipelineAction.removes : PipelineAction → Bool
  | .store _ _ => true
  | .resetUsage _ _ _ => true
  | .prune _ _ => true
  | _ => false

/-- A step commits some charges, and every row grows by what they book
there, unless the surroundings remove it. -/
structure Enters (s : Pipeline) (action : PipelineAction) (after : Pipeline)
    (charges : List (Int × Posting)) : Prop where
  applied : after.trace.applied = s.trace.applied ++ charges
  committed : action ≠ .restart →
    after.trace.committed = s.trace.committed ++ charges
  tables : ∀ key,
    amountAt after.host.database key = amountAt s.host.database key +
        tally (charges.flatMap chargeBookings) key ∨
      action.removes = true ∧ charges = [] ∧
        amountAt after.host.database key = 0

section Entering

variable [Build] {options : Options} {s after : Pipeline}
variable {action : PipelineAction}

omit [Build] in
theorem enters_of_same
    (applied : after.trace.applied = s.trace.applied)
    (committed : action ≠ .restart →
      after.trace.committed = s.trace.committed)
    (tables : ∀ key,
      amountAt after.host.database key = amountAt s.host.database key ∨
        action.removes = true ∧ amountAt after.host.database key = 0) :
    Enters s action after [] where
  applied := by rw [applied, List.append_nil]
  committed := fun running => by rw [committed running, List.append_nil]
  tables := by
    intro key
    rcases tables key with same | ⟨removes, none⟩
    · left
      rw [same]
      exact (add_zero _).symm
    · exact .inr ⟨removes, rfl, none⟩

omit [Build] in
/-- A removal leaves a row as it is, or takes all of it. -/
theorem enters_of_removes {gone : RowKey → Bool} (removes : action.removes)
    (removed : Removes s.host.database after.host.database gone)
    (applied : after.trace.applied = s.trace.applied)
    (committed : after.trace.committed = s.trace.committed) :
    Enters s action after [] := by
  refine enters_of_same applied (fun _ => committed) fun key => ?_
  rw [removed.amounts]
  cases gone key
  · exact .inl rfl
  · exact .inr ⟨removes, rfl⟩

theorem Balanced.enters (balanced : Balanced s) (charged : Charged s)
    (move : Move options s action after) :
    ∃ charges, Enters s action after charges := by
  cases move with
  | store op choice =>
      refine ⟨[], enters_of_same rfl (fun _ => rfl) fun key => ?_⟩
      have change := accountChange_handle s.host op choice
      by_cases there : key.userID ∈
          (s.host.handle op choice).2.database.users.map UserRow.id
      · exact .inl (change.amounts balanced.traffic there)
      · exact .inr ⟨rfl, amountAt_of_absent
          (change.traffic balanced.traffic) there⟩
  | reset id time failure database done =>
      have clears := clears_resetUsage done
      exact ⟨[], enters_of_removes rfl (removes_deleteWhere balanced.traffic
        clears.usage clears.destinations) rfl rfl⟩
  | prune time failed =>
      have clears := @clears_prune s.host.database
        (Pipeline.retainedFrom options time)
      exact ⟨[], enters_of_removes rfl (removes_deleteWhere balanced.traffic
        clears.usage clears.destinations) rfl rfl⟩
  | commit choice resolution database resolving finished done =>
      refine ⟨chargesOf resolution.idOf s.trace.batch, rfl, fun _ => rfl,
        fun key => .inl ?_⟩
      rw [← charged.tally_batch resolving finished]
      exact (books_applyDeltas done).1.amounts key
  | direct | receive =>
      exact ⟨[], enters_of_same (add_applied _ _ _)
        (fun _ => add_committed _ _ _) fun _ => .inl rfl⟩
  | restart =>
      exact ⟨[], enters_of_same rfl (fun running => absurd rfl running)
        fun _ => .inl rfl⟩
  | _ =>
      exact ⟨[], enters_of_same rfl (fun _ => rfl) fun _ => .inl rfl⟩

end Entering

/-- The charges and the books hold in every state of every run. -/
theorem run_balanced [Build] (options : Options)
    (actions : List PipelineAction) :
    Charged (Runs.run (Pipeline.step options) actions
        (Pipeline.initial options)) ∧
      Balanced (Runs.run (Pipeline.step options) actions
        (Pipeline.initial options)) := by
  apply @every_run _ _ (fun s => Charged s ∧ Balanced s)
  · rintro s action after move ⟨charged, balanced⟩
    exact ⟨charged.move move, balanced.move charged move⟩
  · rintro s ⟨charged, balanced⟩
    exact ⟨charged.tick, balanced.tick⟩
  · exact ⟨charged_initial options, balanced_initial options⟩

end Xoxproxy.Analytics
