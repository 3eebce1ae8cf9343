import Mathlib.Data.List.GetD
import Xoxproxy.Analytics.Cursor
import Xoxproxy.Analytics.Resolving

/-!
# When records were logged

Every byte of the log was written at a moment of the run.  A record that is
on its way to the ledger keeps its moment, through restarts too, and what
arrives later was logged later.
-/

namespace Xoxproxy.Analytics

open AssociationMaps RowTables Transactions Tallies

/-- Every byte of the log was written at a moment in the past. -/
structure Clocked (s : Pipeline) : Prop where
  length : s.trace.stamps.length = s.log.length
  past : ∀ stamp ∈ s.trace.stamps, stamp < s.trace.now

theorem clocked_initial (options : Options) :
    Clocked (Pipeline.initial options) where
  length := rfl
  past := fun _ listed => (by cases listed)

theorem add_stamps (trace : Trace) (entry : Entry) (slot : DestKey) :
    (trace.add entry slot).stamps = trace.stamps := by
  rw [trace.add_eq entry slot]

theorem add_now (trace : Trace) (entry : Entry) (slot : DestKey) :
    (trace.add entry slot).now = trace.now := by
  rw [trace.add_eq entry slot]

section Clock

variable [Build] {options : Options} {start : Nat} {s after : Pipeline}
variable {action : PipelineAction} {entry : Entry}

/-- The log grows at its end, and what is new is written now. -/
theorem grown_of_move (move : Move options s action after) :
    after.trace.now = s.trace.now ∧ ∃ bytes,
      after.log = s.log ++ bytes ∧
        after.trace.stamps =
          s.trace.stamps ++ List.replicate bytes.length s.trace.now := by
  cases move with
  | append bytes => exact ⟨rfl, bytes, rfl, rfl⟩
  | direct | receive =>
      exact ⟨add_now _ _ _, [], (List.append_nil _).symm,
        (add_stamps _ _ _).trans (List.append_nil _).symm⟩
  | _ =>
      exact ⟨rfl, [], (List.append_nil _).symm, (List.append_nil _).symm⟩

theorem Clocked.step (clocked : Clocked s)
    (move : Move options s action after) : Clocked after.tick := by
  obtain ⟨now, bytes, log, stamps⟩ := grown_of_move move
  refine ⟨?_, ?_⟩
  · change after.trace.stamps.length = after.log.length
    rw [log, stamps, List.length_append, List.length_append,
      List.length_replicate, clocked.length]
  · change ∀ stamp ∈ after.trace.stamps, stamp < after.trace.now + 1
    rw [stamps, now]
    intro stamp listed
    rcases List.mem_append.mp listed with old | new
    · exact Nat.lt_succ_of_lt (clocked.past stamp old)
    · rw [List.eq_of_mem_replicate new]
      exact Nat.lt_succ_self _

theorem bounds_of_mem_logEntries {log : Bytes}
    (listed : entry ∈ logEntries log) :
    0 < entry.line ∧ entry.line ≤ log.length := by
  have bounds := bounds_of_mem_lines listed
  have parts := congrArg List.length (flatten_completeLines_append log)
  rw [List.length_append] at parts
  omega

theorem Clocked.logged_lt (clocked : Clocked s)
    (listed : entry ∈ logEntries s.log) :
    s.trace.logged entry < s.trace.now := by
  obtain ⟨positive, inside⟩ := bounds_of_mem_logEntries listed
  have within : entry.line - 1 < s.trace.stamps.length := by
    rw [clocked.length]
    omega
  rw [Trace.logged, List.getD_eq_getElem _ _ within]
  exact clocked.past _ (List.getElem_mem within)

/-- A record keeps its moment. -/
theorem Clocked.logged_old (clocked : Clocked s)
    (move : Move options s action after)
    (listed : entry ∈ logEntries s.log) :
    after.trace.logged entry = s.trace.logged entry := by
  obtain ⟨-, bytes, -, stamps⟩ := grown_of_move move
  obtain ⟨positive, inside⟩ := bounds_of_mem_logEntries listed
  have within : entry.line - 1 < s.trace.stamps.length := by
    rw [clocked.length]
    omega
  rw [Trace.logged, Trace.logged, stamps, List.getD_append _ _ _ _ within]

/-- A line that a step completes is logged at that step. -/
theorem Clocked.logged_new (clocked : Clocked s)
    (move : Move options s action after)
    (listed : entry ∈ logEntries after.log)
    (behind : s.log.length < entry.line) :
    after.trace.logged entry = s.trace.now := by
  obtain ⟨-, bytes, log, stamps⟩ := grown_of_move move
  obtain ⟨-, inside⟩ := bounds_of_mem_logEntries listed
  rw [log, List.length_append] at inside
  have length := clocked.length
  rw [Trace.logged, stamps,
    List.getD_append_right _ _ _ _ (by omega), List.getD_eq_getElem,
    List.getElem_replicate]
  rw [List.length_replicate]
  omega

/-- The records that may still reach the ledger: those under way, and those
that a restarted process would read. -/
def Pipeline.onTheWay (options : Options) (s : Pipeline) : List Entry :=
  s.underway ++
    (logEntries s.log).filter fun entry => s.cursor options < entry.line

theorem mem_onTheWay :
    entry ∈ s.onTheWay options ↔ entry ∈ s.underway ∨
      entry ∈ logEntries s.log ∧ s.cursor options < entry.line := by
  simp only [Pipeline.onTheWay, List.mem_append, List.mem_filter,
    decide_eq_true_eq]

theorem Cursored.logged_onTheWay (held : Cursored options start s)
    (listed : entry ∈ s.onTheWay options) : entry ∈ logEntries s.log := by
  rcases mem_onTheWay.mp listed with underway | ⟨logged, -⟩
  · exact (held.accounts.bounds
      (held.accounts.placed.published underway)).1
  · exact logged

/-- Only what is logged now comes on the way. -/
theorem Cursored.onTheWay_move (held : Cursored options start s)
    (move : Move options s action after)
    (listed : entry ∈ after.onTheWay options) :
    entry ∈ s.onTheWay options ∨
      entry ∈ logEntries after.log ∧ s.log.length < entry.line := by
  rcases mem_onTheWay.mp listed with underway | ⟨logged, behind⟩
  · exact .inl (mem_onTheWay.mpr (held.arrives move underway))
  · obtain ⟨-, bytes, log, -⟩ := grown_of_move move
    have order := held.cursor_le move
    have logged' := logged
    rw [log] at logged'
    rcases mem_logEntries_append bytes logged' with old | new
    · exact .inl (mem_onTheWay.mpr (.inr ⟨old, by omega⟩))
    · exact .inr ⟨logged, new⟩

omit [Build] in
theorem AccountChange.sequence_le {database changed : Database}
    (change : AccountChange database changed) :
    database.userSequence ≤ changed.userSequence := by
  cases change with
  | kept _ _ sequence => rw [sequence]
  | created _ _ _ _ sequence =>
      rw [sequence]
      omega
  | deleted id => exact Int.le_refl _

omit [Build] in
/-- An account is an old one, or new. -/
theorem AccountChange.accounts_old {database changed : Database}
    (change : AccountChange database changed) {account : Int × String}
    (listed : account ∈ accounts changed) :
    account ∈ accounts database ∨ database.userSequence < account.1 := by
  cases change with
  | kept _ same =>
      rw [same] at listed
      exact .inl listed
  | created _ name free added =>
      rw [added, List.mem_append, List.mem_singleton] at listed
      rcases listed with old | rfl
      · exact .inl old
      · exact .inr (Int.lt_add_one_of_le (Int.le_refl _))
  | deleted id =>
      obtain ⟨row, kept, rfl⟩ := List.mem_map.mp listed
      exact .inl (List.mem_map.mpr ⟨row, (mem_deleteWhere.mp kept).1, rfl⟩)

theorem sequence_of_move (move : Move options s action after) :
    s.host.database.userSequence ≤ after.host.database.userSequence := by
  cases move with
  | store op choice =>
      exact (accountChange_handle s.host op choice).sequence_le
  | reset id time failure database done =>
      exact (clears_resetUsage done).sequence.ge
  | commit choice resolution database resolving finished done =>
      exact (books_applyDeltas done).1.sequence.ge
  | _ => exact Int.le_refl _

/-- Ids are given out once. -/
theorem userSequence_run (later : List PipelineAction) (s : Pipeline) :
    s.host.database.userSequence ≤
      (Runs.run (Pipeline.step options) later s).host.database.userSequence := by
  refine @Runs.invariant_of_run _ _ _
    (fun next : Pipeline => s.host.database.userSequence ≤
      next.host.database.userSequence) ?_ later _ (Int.le_refl _)
  intro next action order
  have grows : next.host.database.userSequence ≤
      (next.act options action).host.database.userSequence :=
    sequence_of_move (move_act action)
  exact order.trans grows

/-- The accounts behind a step were there before, or are new. -/
theorem accounts_of_move (move : Move options s action after)
    {account : Int × String}
    (listed : account ∈ accounts after.host.database) :
    account ∈ accounts s.host.database ∨
      s.host.database.userSequence < account.1 := by
  cases move with
  | store op choice =>
      exact (accountChange_handle s.host op choice).accounts_old listed
  | reset id time failure database done =>
      have same := (clears_resetUsage done).users
      left
      rw [accounts, ← same]
      exact listed
  | commit choice resolution database resolving finished done =>
      have same := (books_applyDeltas done).1.accounts
      left
      rw [← same]
      exact listed
  | _ => exact .inl listed

/-- Moments that are remembered for accounts: whatever is on its way to one
of them was logged no earlier. -/
structure Marked (options : Options) (marks : List (Int × Nat))
    (s : Pipeline) : Prop where
  issued : ∀ mark ∈ marks, mark.1 ≤ s.host.database.userSequence
  past : ∀ mark ∈ marks, mark.2 ≤ s.trace.now
  waits : ∀ mark ∈ marks, ∀ entry ∈ s.onTheWay options,
    (mark.1, entry.record.username) ∈ accounts s.host.database →
      mark.2 ≤ s.trace.logged entry

theorem marked_nil (options : Options) (s : Pipeline) :
    Marked options [] s where
  issued := fun _ listed => (by cases listed)
  past := fun _ listed => (by cases listed)
  waits := fun _ listed => (by cases listed)

variable {marks : List (Int × Nat)}

theorem Marked.append {others : List (Int × Nat)}
    (first : Marked options marks s) (second : Marked options others s) :
    Marked options (marks ++ others) s where
  issued := List.forall_mem_append.mpr ⟨first.issued, second.issued⟩
  past := List.forall_mem_append.mpr ⟨first.past, second.past⟩
  waits := List.forall_mem_append.mpr ⟨first.waits, second.waits⟩

theorem Marked.step (marked : Marked options marks s)
    (held : Cursored options start s) (clocked : Clocked s)
    (move : Move options s action after) :
    Marked options marks after.tick where
  issued := by
    intro mark listed
    have later := sequence_of_move move
    exact (marked.issued mark listed).trans later
  past := by
    intro mark listed
    change mark.2 ≤ after.trace.now + 1
    rw [(grown_of_move move).1]
    exact Nat.le_succ_of_le (marked.past mark listed)
  waits := by
    intro mark listed entry waits owner
    have early := marked.issued mark listed
    have old : (mark.1, entry.record.username) ∈
        accounts s.host.database := by
      refine (accounts_of_move move owner).resolve_right fun fresh => ?_
      exact absurd early (Int.not_le.mpr fresh)
    change mark.2 ≤ after.trace.logged entry
    rcases held.onTheWay_move move waits with before | ⟨logged, behind⟩
    · rw [clocked.logged_old move (held.logged_onTheWay before)]
      exact marked.waits mark listed entry before old
    · rw [clocked.logged_new move logged behind]
      exact marked.past mark listed

end Clock

theorem requests_of_ones {bookings : List (RowKey × Counters)}
    (ones : ∀ booking ∈ bookings, booking.2.requests = 1) :
    ((bookings.map Prod.snd).sum).requests = bookings.length := by
  induction bookings with
  | nil => rfl
  | cons booking rest inductionHypothesis =>
      have one := ones booking List.mem_cons_self
      have later := inductionHypothesis fun other listed =>
        ones other (List.mem_cons_of_mem booking listed)
      rw [List.map_cons, List.sum_cons, Counters.add_requests, one, later,
        List.length_cons]
      omega

theorem requests_chargeBookings {charges : List (Int × Posting)} :
    ∀ booking ∈ charges.flatMap chargeBookings,
      booking.2.requests = 1 := by
  intro booking listed
  obtain ⟨charge, -, made⟩ := List.mem_flatMap.mp listed
  obtain ⟨key, -, rfl⟩ := List.mem_map.mp made
  cases key <;> rfl

/-- Where a record is charged the tally counts it. -/
theorem tally_charges_ne_zero {charges : List (Int × Posting)}
    {charge : Int × Posting} (listed : charge ∈ charges) {key : RowKey}
    (row : key ∈ Trace.rowsOf charge.1 charge.2) :
    tally (charges.flatMap chargeBookings) key ≠ 0 := by
  intro nothing
  have here : (key, rowAmount key charge.2.entry) ∈
      (charges.flatMap chargeBookings).filter fun booking =>
        booking.1 = key := by
    refine List.mem_filter.mpr ⟨List.mem_flatMap.mpr ⟨charge, listed, ?_⟩,
      decide_eq_true rfl⟩
    exact List.mem_map.mpr ⟨key, row, rfl⟩
  have ones := @requests_of_ones
    ((charges.flatMap chargeBookings).filter fun booking =>
      booking.1 = key) fun booking member =>
        requests_chargeBookings booking (List.mem_filter.mp member).1
  rw [← tally_apply, nothing] at ones
  have positive := List.length_pos_of_mem here
  have zero : (0 : Counters).requests = 0 := rfl
  omega

section Committing

variable {s : Pipeline} {resolution : Resolution} {database : Database}
variable {cursor : LogCursor}

/-- A flush charges accounts that are there, each under its username. -/
theorem charge_owner (charged : Charged s) (resolves : Resolving s)
    (resolving : s.loop = .resolving resolution)
    (finished : resolution.remaining = [])
    (done : executeAll
      (applyDeltasStatements resolution.usage resolution.dests cursor)
      s.host.database = .ok database)
    {charge : Int × Posting}
    (listed : charge ∈ chargesOf resolution.idOf s.trace.batch) :
    (charge.1, charge.2.entry.record.username) ∈
        accounts s.host.database ∧
      charge.2 ∈ s.trace.batch := by
  obtain ⟨books, -⟩ := books_applyDeltas done
  obtain ⟨booked, -, named⟩ := resolves resolution resolving
  obtain ⟨posting, known, rfl⟩ := List.mem_map.mp listed
  obtain ⟨batched, real⟩ := List.mem_filter.mp known
  have real := of_decide_eq_true real
  refine ⟨?_, batched⟩
  have counted := @tally_charges_ne_zero _ _ listed
    (.usage (resolution.idOf posting.entry.record.username)
      posting.entry.record.day "day") List.mem_cons_self
  rw [← charged.tally_batch resolving finished] at counted
  have booking : ∃ booking ∈ rowBookings resolution.usage resolution.dests,
      booking.1 = .usage (resolution.idOf posting.entry.record.username)
        posting.entry.record.day "day" := by
    by_contra none
    push Not at none
    exact counted (tally_apply_eq_zero none)
  obtain ⟨booking, made, key⟩ := booking
  have owned := books.owned booking made
  rw [key] at owned
  obtain ⟨row, there, same⟩ := List.mem_map.mp owned
  change row.id = resolution.idOf posting.entry.record.username at same
  have pair : (posting.entry.record.username,
      resolution.idOf posting.entry.record.username) ∈ resolution.ids := by
    unfold Resolution.idOf at real ⊢
    cases found : find? posting.entry.record.username resolution.ids with
    | none =>
        rw [found] at real
        exact absurd rfl real
    | some id => exact find?_mem found
  have name : row.username = posting.entry.record.username :=
    named.named _ pair (row.id, row.username)
      (List.mem_map.mpr ⟨row, there, rfl⟩) same
  refine List.mem_map.mpr ⟨row, there, ?_⟩
  rw [same, name]

end Committing

end Xoxproxy.Analytics
