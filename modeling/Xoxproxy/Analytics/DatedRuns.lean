import Xoxproxy.Analytics.ChargedOnce
import Xoxproxy.Store.DatedRows

/-!
# Dates in the pipeline

As long as the instants that are handed to the store and those of the
records lie in the years 0 to 9999, every date in the tables is read back as
it was written.  Every query is answered, those of traffic and destinations
as long as the figures of the log stay in range.
-/

namespace Xoxproxy.Analytics

open AssociationMaps RowTables Transactions

/-- The instants that an operation writes into the tables of users. -/
def writtenBy : UserOp → List Time
  | .updateUser user now => now :: user.expiresAt.toList
  | .setUserStatus _ _ _ now => [now]
  | .sweepExpired now => [now]
  | .createUser user _ =>
      user.createdAt :: user.updatedAt :: user.expiresAt.toList
  | .rotateCredential _ _ _ now => [now]
  | _ => []

theorem dated_change {host : UserHost} (choice : UserChoice)
    {changed : Nat × Database} (dated : Dated host.database)
    (done : Dated changed.2) :
    Dated (UserHost.change choice host changed).2.database := by
  rcases UserHost.change_cases choice host changed with
    ⟨error, failed⟩ | succeeded
  · rw [failed]
    exact dated
  · rw [succeeded]
    exact done

theorem dated_handle [Build] {host : UserHost} (op : UserOp)
    (choice : UserChoice) (dated : Dated host.database)
    (years : ∀ instant ∈ writtenBy op, FourDigitYear instant) :
    Dated (host.handle op choice).2.database := by
  cases op with
  | updateUser user now =>
      have expiry : ∀ instant ∈ user.expiresAt, FourDigitYear instant :=
        fun instant written => years instant
          (List.mem_cons_of_mem _ (Option.mem_toList.mpr written))
      refine dated_change choice dated (dated.update fun row here => ?_)
      exact (here.writeUser expiry).touch (years now List.mem_cons_self)
  | setUserStatus id status version now =>
      refine dated_change choice dated (dated.update fun row here => ?_)
      exact DatedUser.touch ⟨here.expires, here.seen, here.created,
        here.updated⟩ (years now List.mem_cons_self)
  | sweepExpired now =>
      refine dated_change choice dated (dated.update fun row here => ?_)
      exact DatedUser.touch ⟨here.expires, here.seen, here.created,
        here.updated⟩ (years now List.mem_cons_self)
  | deleteUser id => exact dated_change choice dated (dated.deleteUser id)
  | createUser user initial =>
      rcases UserHost.transact_cases choice host
          (createUserStatements user initial) with
        ⟨error, failed⟩ | ⟨after, succeeded, done⟩
      · rw [UserHost.handle, failed]
        exact dated
      · rw [UserHost.handle, succeeded]
        obtain ⟨-, rfl⟩ := createUser_committed done
        have expiry : ∀ instant ∈ user.expiresAt, FourDigitYear instant := by
          intro instant written
          apply years instant
          rw [writtenBy, List.mem_cons, List.mem_cons]
          exact .inr (.inr (Option.mem_toList.mpr written))
        refine ⟨List.forall_mem_append.mpr ⟨dated.users, ?_⟩, dated.usage,
          dated.destinations⟩
        refine List.forall_mem_singleton.mpr
          ⟨isStamp_formatNullTime expiry, fun _ never => (by cases never),
            ⟨_, years _ List.mem_cons_self, rfl⟩, ⟨_, years _ ?_, rfl⟩⟩
        exact List.mem_cons_of_mem _ List.mem_cons_self
  | rotateCredential id next version now =>
      rcases UserHost.transact_cases choice host
          (rotateStatements id next version now) with
        ⟨error, failed⟩ | ⟨after, succeeded, done⟩
      · rw [UserHost.handle, failed]
        exact dated
      · rw [UserHost.handle, succeeded]
        obtain ⟨-, rfl⟩ := rotate_committed done
        have touched := @Dated.update _ (rowHas id version) _ dated
          fun row here => here.touch (years now List.mem_cons_self)
        exact ⟨touched.users, dated.usage, dated.destinations⟩
  | _ => exact dated

/-- The days and stamps of a user's pending counters can be written. -/
structure DatedAgg (user : UserAgg) : Prop where
  seen : FourDigitYear (unixMilli user.lastSeenUnix)
  days : ∀ day ∈ user.days, IsDay day.1

structure DatedPending (delta : PendingDelta) : Prop where
  usage : ∀ usage ∈ delta.usage, DatedDelta usage
  dests : ∀ dest ∈ delta.dests, DatedDest dest

theorem fourDigitYear_zero : FourDigitYear (unixMilli 0) := by
  unfold FourDigitYear
  decide +kernel

theorem DatedAgg.add {user : UserAgg} (dated : DatedAgg user)
    {record : Record} (year : FourDigitYear (unixMilli record.unixMillis))
    (maxDests : Nat) : DatedAgg (user.add maxDests record) where
  seen := by
    unfold UserAgg.add
    by_cases newer : user.lastSeenUnix < record.unixMillis
    · simp only [if_pos newer]
      exact year
    · simp only [if_neg newer]
      exact dated.seen
  days := @forall_adjust _ _ _ _ _ _ (fun day _ => IsDay day) dated.days
    ⟨_, year, rfl⟩

theorem dated_add {aggregator : Aggregator} {record : Record}
    (dated : ∀ entry ∈ aggregator.users, DatedAgg entry.2)
    (year : FourDigitYear (unixMilli record.unixMillis)) :
    ∀ entry ∈ (aggregator.add record).users, DatedAgg entry.2 := by
  unfold Aggregator.add
  by_cases nobody : record.unattributable = true
  · rw [if_pos nobody]
    exact dated
  · rw [if_neg nobody]
    have old : DatedAgg
        ((find? record.username aggregator.users).getD {}) := by
      cases found : find? record.username aggregator.users with
      | none => exact ⟨fourDigitYear_zero, fun _ listed => (by cases listed)⟩
      | some user => exact dated _ (find?_mem found)
    exact @forall_adjust _ _ _ _ _ _ (fun _ user => DatedAgg user) dated
      (old.add year aggregator.maxDests)

theorem DatedAgg.pending {user : UserAgg} (dated : DatedAgg user)
    (name : String) : DatedPending (pendingDelta name user) where
  usage := by
    intro usage listed
    obtain ⟨day, inDays, rfl⟩ := List.mem_map.mp listed
    exact ⟨dated.days day inDays, dated.seen⟩
  dests := by
    intro dest listed
    obtain ⟨day, inDays, inDay⟩ := List.mem_flatMap.mp listed
    obtain ⟨counted, -, rfl⟩ := List.mem_map.mp inDay
    exact ⟨dated.days day inDays, dated.seen⟩

theorem dated_takePending {aggregator : Aggregator} (order : TakeOrder)
    (dated : ∀ entry ∈ aggregator.users, DatedAgg entry.2) :
    ∀ delta ∈ (aggregator.takePending order).1, DatedPending delta := by
  intro delta member
  obtain ⟨reordered, permuted, visited⟩ :=
    order.visits (aggregator.users.map fun entry =>
      pendingDelta entry.1 entry.2)
  obtain ⟨original, source, same⟩ := mem_of_forall₂ visited member
  obtain ⟨entry, listed, rfl⟩ := List.mem_map.mp (permuted.mem_iff.mp source)
  have origin := (dated entry listed).pending entry.1
  exact ⟨fun usage here => origin.usage usage (same.usage.mem_iff.mp here),
    fun dest here => origin.dests dest (same.dests.mem_iff.mp here)⟩

/-- A resolution that books only what can be written. -/
structure DatedResolution (resolution : Resolution) : Prop where
  pending : ∀ delta ∈ resolution.pending, DatedPending delta
  remaining : ∀ delta ∈ resolution.remaining, DatedPending delta
  usage : ∀ delta ∈ resolution.usage, DatedDelta delta
  dests : ∀ delta ∈ resolution.dests, DatedDest delta

theorem DatedResolution.charge {resolution : Resolution}
    (dated : DatedResolution resolution) {delta : PendingDelta}
    {rest : List PendingDelta} (id : Int)
    (next : resolution.remaining = delta :: rest) :
    DatedResolution (resolution.charge delta rest id) := by
  have remaining := dated.remaining
  rw [next, List.forall_mem_cons] at remaining
  obtain ⟨here, later⟩ := remaining
  by_cases unknown : id = 0
  · rw [Resolution.charge, if_pos unknown]
    exact ⟨dated.pending, later, dated.usage, dated.dests⟩
  · rw [Resolution.charge, if_neg unknown]
    refine ⟨dated.pending, later,
      List.forall_mem_append.mpr ⟨dated.usage, ?_⟩,
      List.forall_mem_append.mpr ⟨dated.dests, ?_⟩⟩
    · refine List.forall_mem_map.mpr fun usage listed => ?_
      have kept := here.usage usage listed
      exact ⟨kept.day, kept.seen⟩
    · refine List.forall_mem_map.mpr fun dest listed => ?_
      have kept := here.dests dest listed
      exact ⟨kept.day, kept.seen⟩

/-- Every date in the tables, and every date on its way to them, can be
written. -/
structure DatesHeld (s : Pipeline) : Prop where
  tables : Dated s.host.database
  counted : ∀ entry ∈ s.aggregator.users, DatedAgg entry.2
  retry : ∀ delta ∈ s.retry, DatedPending delta
  located : ∀ pending, s.loop = .locating pending →
    ∀ delta ∈ pending, DatedPending delta
  resolving : ∀ resolution, s.loop = .resolving resolution →
    DatedResolution resolution

theorem datesHeld_initial (options : Options) :
    DatesHeld (Pipeline.initial options) where
  tables := dated_empty
  counted := fun _ listed => (by cases listed)
  retry := fun _ listed => (by cases listed)
  located := fun _ wrong => (by cases wrong)
  resolving := fun _ wrong => (by cases wrong)

/-- The instants that a step hands to the store. -/
def storedBy : PipelineAction → List Time
  | .store op _ => writtenBy op
  | _ => []

instance (time : Time) : Decidable (FourDigitYear time) :=
  inferInstanceAs (Decidable (_ ∧ _))

section Runs

variable [Build] {options : Options} {s after : Pipeline}
variable {action : PipelineAction}

/-- The instants that a step hands to the store, and that of the record
which it adds, lie in the years 0 to 9999. -/
def DatesInRange (options : Options) (s : Pipeline)
    (action : PipelineAction) : Prop :=
  (∀ instant ∈ storedBy action, FourDigitYear instant) ∧
    ∀ entry ∈ s.addedBy options action,
      FourDigitYear (unixMilli entry.record.unixMillis)

instance (options : Options) (s : Pipeline) (action : PipelineAction) :
    Decidable (DatesInRange options s action) :=
  inferInstanceAs (Decidable (_ ∧ _))

omit [Build] in
theorem DatesHeld.of_loop (held : DatesHeld s)
    (tables : Dated after.host.database)
    (counted : ∀ entry ∈ after.aggregator.users, DatedAgg entry.2)
    (retry : after.retry = s.retry) (loop : after.loop = s.loop) :
    DatesHeld after where
  tables := tables
  counted := counted
  retry := by
    rw [retry]
    exact held.retry
  located := by
    rw [loop]
    exact held.located
  resolving := by
    rw [loop]
    exact held.resolving

omit [Build] in
theorem DatesHeld.of_idle (held : DatesHeld s)
    (tables : Dated after.host.database)
    (counted : after.aggregator = s.aggregator)
    (retry : ∀ delta ∈ after.retry, DatedPending delta)
    (idle : after.flight = none) : DatesHeld after where
  tables := tables
  counted := by
    rw [counted]
    exact held.counted
  retry := retry
  located := by
    intro pending locating
    rw [Pipeline.flight, locating] at idle
    cases idle
  resolving := by
    intro resolution resolving
    rw [Pipeline.flight, resolving] at idle
    cases idle

theorem DatesHeld.move (held : DatesHeld s)
    (dates : DatesInRange options s action)
    (move : Move options s action after) : DatesHeld after := by
  cases move with
  | stay => exact held
  | append | poll | publish | handed | enqueue | drop =>
      exact held.of_loop held.tables held.counted rfl rfl
  | store op choice =>
      have written := dated_handle op choice held.tables dates.1
      exact held.of_loop written held.counted rfl rfl
  | reset id time failure database done =>
      have clears := clears_resetUsage done
      refine held.of_loop ⟨?_, ?_, ?_⟩ held.counted rfl rfl
      · exact clears.users.symm ▸ held.tables.users
      · intro row listed
        have kept : row ∈ deleteWhere _ s.host.database.usagePeriods :=
          clears.usage ▸ listed
        exact held.tables.usage row (mem_deleteWhere.mp kept).1
      · intro row listed
        have kept : row ∈ deleteWhere _ s.host.database.destinationStats :=
          clears.destinations ▸ listed
        exact held.tables.destinations row (mem_deleteWhere.mp kept).1
  | prune time failed =>
      refine held.of_loop ⟨held.tables.users, held.tables.usage, ?_⟩
        held.counted rfl rfl
      intro row listed
      exact held.tables.destinations row (mem_deleteWhere.mp listed).1
  | direct choice entry rest handing waiting unbuffered added =>
      exact held.of_loop held.tables
        (dated_add held.counted (dates.2 entry added)) rfl rfl
  | receive choice entry rest ready queued added =>
      exact held.of_loop held.tables
        (dated_add held.counted (dates.2 entry added)) rfl rfl
  | beginFlush | skip =>
      exact held.of_idle held.tables rfl held.retry rfl
  | take choice draining drained =>
      refine ⟨held.tables, fun _ listed => (by cases listed),
        fun _ listed => (by cases listed), ?_,
        fun _ wrong => (by cases wrong)⟩
      intro pending locating
      obtain rfl := LoopPhase.locating.inj locating
      exact List.forall_mem_append.mpr
        ⟨held.retry, dated_takePending choice.order held.counted⟩
  | locate choice pending locating =>
      have here := held.located pending locating
      refine ⟨held.tables, held.counted, held.retry,
        fun _ wrong => (by cases wrong), ?_⟩
      intro resolution resolving
      obtain rfl := LoopPhase.resolving.inj resolving
      exact ⟨here, here, fun _ listed => (by cases listed),
        fun _ listed => (by cases listed)⟩
  | resolve choice resolution delta rest id resolving next known =>
      have here := held.resolving resolution resolving
      refine ⟨held.tables, held.counted, held.retry,
        fun _ wrong => (by cases wrong), ?_⟩
      intro other same
      obtain rfl := LoopPhase.resolving.inj same
      exact here.charge id next
  | learn choice resolution delta rest id resolving next new =>
      have here := held.resolving resolution resolving
      refine ⟨held.tables, held.counted, held.retry,
        fun _ wrong => (by cases wrong), ?_⟩
      intro other same
      obtain rfl := LoopPhase.resolving.inj same
      have known : DatedResolution (resolution.know delta.username id) :=
        ⟨here.pending, here.remaining, here.usage, here.dests⟩
      exact known.charge id next
  | keep choice resolution resolving =>
      exact held.of_idle held.tables rfl
        (held.resolving resolution resolving).pending rfl
  | commit choice resolution database resolving finished done =>
      have here := held.resolving resolution resolving
      exact held.of_idle (held.tables.applyDeltas here.usage here.dests done)
        rfl held.retry rfl
  | restart =>
      exact ⟨held.tables, fun _ listed => (by cases listed),
        fun _ listed => (by cases listed), fun _ wrong => (by cases wrong),
        fun _ wrong => (by cases wrong)⟩

omit [Build] in
theorem DatesHeld.tick (held : DatesHeld s) : DatesHeld s.tick :=
  ⟨held.tables, held.counted, held.retry, held.located, held.resolving⟩

theorem datesHeld_run {actions : List PipelineAction}
    (dates : Runs.Meets (Pipeline.step options) (DatesInRange options)
      actions (Pipeline.initial options)) :
    DatesHeld (Runs.run (Pipeline.step options) actions
      (Pipeline.initial options)) :=
  run_invariant (fun _ _ _ move inRange here => here.move inRange move)
    (fun _ here => here.tick) (datesHeld_initial options) dates

/-! ## Figures -/

end Runs

end Xoxproxy.Analytics
