import Xoxproxy.Analytics.Agreement
import Xoxproxy.Analytics.Cursor

/-!
# Figures in range

The code counts in signed integers of 64 bits.  As long as the figures of
the log add up to less than 2^63, so do those of every counter and of every
row, whatever has been retried, removed and read again.
-/

namespace Xoxproxy.Analytics

open AssociationMaps RowTables Transactions Tallies

namespace Counters

/-- Counters are compared figure by figure. -/
instance : LE Counters where
  le first second :=
    first.requests ≤ second.requests ∧ first.blocked ≤ second.blocked ∧
      first.bytesIn ≤ second.bytesIn ∧ first.bytesOut ≤ second.bytesOut

theorem le_iff {first second : Counters} :
    first ≤ second ↔ first.requests ≤ second.requests ∧
      first.blocked ≤ second.blocked ∧ first.bytesIn ≤ second.bytesIn ∧
        first.bytesOut ≤ second.bytesOut := Iff.rfl

theorem self_le (counters : Counters) : counters ≤ counters :=
  ⟨Int.le_refl _, Int.le_refl _, Int.le_refl _, Int.le_refl _⟩

theorem le_of_le_of_le (first second third : Counters)
    (below : first ≤ second) (above : second ≤ third) : first ≤ third := by
  rw [le_iff] at below above ⊢
  omega

theorem eq_of_le_of_ge (first second : Counters) (below : first ≤ second)
    (above : second ≤ first) : first = second := by
  rw [le_iff] at below above
  ext <;> omega

instance : PartialOrder Counters where
  le_refl := self_le
  le_trans := le_of_le_of_le
  le_antisymm := eq_of_le_of_ge
  lt_iff_le_not_ge := fun _ _ => Iff.rfl

instance : IsOrderedAddMonoid Counters where
  add_le_add_left := by
    intro first second ordered third
    simp only [le_iff, add_requests, add_blocked, add_bytesIn,
      add_bytesOut] at ordered ⊢
    omega

/-- Every figure is one of an `int64`. -/
structure Fits (counters : Counters) : Prop where
  requests : fitsInt64 counters.requests = true
  blocked : fitsInt64 counters.blocked = true
  bytesIn : fitsInt64 counters.bytesIn = true
  bytesOut : fitsInt64 counters.bytesOut = true

theorem Fits.of_le {counters limit : Counters} (fits : limit.Fits)
    (nonneg : 0 ≤ counters) (below : counters ≤ limit) : counters.Fits := by
  have small : ∀ {value larger : Int}, fitsInt64 larger = true →
      0 ≤ value → value ≤ larger → fitsInt64 value = true := by
    intro value larger inside positive ordered
    simp only [fitsInt64, Bool.and_eq_true, decide_eq_true_iff]
      at inside ⊢
    omega
  obtain ⟨requests, blocked, bytesIn, bytesOut⟩ := le_iff.mp nonneg
  obtain ⟨requestsLe, blockedLe, bytesInLe, bytesOutLe⟩ := le_iff.mp below
  exact ⟨small fits.requests requests requestsLe,
    small fits.blocked blocked blockedLe,
    small fits.bytesIn bytesIn bytesInLe,
    small fits.bytesOut bytesOut bytesOutLe⟩

theorem unsorted_nonneg {counters : Counters} (nonneg : 0 ≤ counters) :
    0 ≤ counters.unsorted := by
  obtain ⟨requests, -, bytesIn, bytesOut⟩ := le_iff.mp nonneg
  exact le_iff.mpr ⟨requests, le_refl 0, bytesIn, bytesOut⟩

theorem unsorted_le {counters : Counters} (nonneg : 0 ≤ counters) :
    counters.unsorted ≤ counters := by
  obtain ⟨-, blocked, -, -⟩ := le_iff.mp nonneg
  exact le_iff.mpr ⟨le_refl _, blocked, le_refl _, le_refl _⟩

end Counters

section Logs

variable [Build] {log : Bytes} {entries : List Entry}

/-- What all complete lines of a log amount to. -/
def logTotal (log : Bytes) : Counters := recordTotal (logEntries log)

/-- The counts of the lines of a log add up to less than 2^63, and so does
the number of the lines. -/
def LogFits (log : Bytes) : Prop := (logTotal log).Fits

instance (log : Bytes) : Decidable (LogFits log) :=
  decidable_of_iff
    ((fitsInt64 (logTotal log).requests = true ∧
      fitsInt64 (logTotal log).blocked = true) ∧
      fitsInt64 (logTotal log).bytesIn = true ∧
      fitsInt64 (logTotal log).bytesOut = true)
    ⟨fun all => ⟨all.1.1, all.1.2, all.2.1, all.2.2⟩,
      fun fits => ⟨⟨fits.requests, fits.blocked⟩, fits.bytesIn,
        fits.bytesOut⟩⟩

theorem ofRecord_nonneg {entry : Entry} (listed : entry ∈ logEntries log) :
    0 ≤ Counters.ofRecord entry.record := by
  have read : entry.record ∈ (logEntries log).map Entry.record :=
    List.mem_map_of_mem listed
  rw [logEntries, map_record_entriesOf, List.mem_filterMap] at read
  obtain ⟨line, -, parsed⟩ := read
  obtain ⟨bytesIn, bytesOut⟩ := counts_nonneg parsed
  refine Counters.le_iff.mpr ⟨Int.one_nonneg, ?_, bytesIn, bytesOut⟩
  change (0 : Int) ≤ if entry.record.blocked then 1 else 0
  split_ifs <;> omega

/-- Some records of a log amount to less than all of them. -/
theorem recordTotal_le (once : entries.Nodup)
    (inside : entries ⊆ logEntries log) :
    recordTotal entries ≤ logTotal log :=
  CheckedSums.sum_le_of_subperm (once.subperm inside)
    fun _ listed => ofRecord_nonneg listed

end Logs

/-- The records of the rows that were written. -/
def Trace.appliedEntries (trace : Trace) : List Entry :=
  trace.applied.map fun charge => charge.2.entry

/-- Rows of which every charge has at most one. -/
def CountedOnce (keep : RowKey → Bool) : Prop :=
  ∀ id posting, ((Trace.rowsOf id posting).filter keep).length ≤ 1

theorem countedOnce_single (key : RowKey) :
    CountedOnce fun other => decide (other = key) := by
  intro id posting
  have once : (Trace.rowsOf id posting).Nodup := by simp [Trace.rowsOf]
  have counts : (Trace.rowsOf id posting).count key ≤ 1 :=
    List.nodup_iff_count_le_one.mp once key
  rw [List.count, List.countP_eq_length_filter] at counts
  exact counts

theorem rowAmount_nonneg {key : RowKey} {entry : Entry}
    (nonneg : 0 ≤ Counters.ofRecord entry.record) :
    0 ≤ rowAmount key entry := by
  cases key with
  | usage => exact Counters.unsorted_nonneg nonneg
  | destination => exact nonneg

theorem rowAmount_le {key : RowKey} {entry : Entry}
    (nonneg : 0 ≤ Counters.ofRecord entry.record) :
    rowAmount key entry ≤ Counters.ofRecord entry.record := by
  cases key with
  | usage => exact Counters.unsorted_le nonneg
  | destination => exact le_refl _

/-- Under rows of which a charge has at most one it books at most what its
record amounts to. -/
theorem total_charge_le {keep : RowKey → Bool} (counted : CountedOnce keep)
    {charge : Int × Posting}
    (nonneg : 0 ≤ Counters.ofRecord charge.2.entry.record) :
    total keep (chargeBookings charge) ≤
      Counters.ofRecord charge.2.entry.record := by
  have rows : total keep (chargeBookings charge) =
      (((Trace.rowsOf charge.1 charge.2).filter keep).map fun key =>
        rowAmount key charge.2.entry).sum := by
    rw [total, chargeBookings, List.filter_map, List.map_map]
    rfl
  have few := counted charge.1 charge.2
  rw [rows]
  cases kept : (Trace.rowsOf charge.1 charge.2).filter keep with
  | nil => exact nonneg
  | cons key rest =>
      rw [kept, List.length_cons] at few
      obtain rfl : rest = [] := List.eq_nil_of_length_eq_zero (by omega)
      rw [List.map_singleton, List.sum_singleton]
      exact rowAmount_le nonneg

section Books

variable [Build] {s : Pipeline}

/-- The tables hold charges of lines of the log, none of them twice. -/
structure Grounded (s : Pipeline) : Prop where
  balanced : Balanced s
  once : s.trace.appliedEntries.Nodup
  logged : s.trace.appliedEntries ⊆ logEntries s.log

theorem Grounded.nonneg (grounded : Grounded s) {charge : Int × Posting}
    (applied : charge ∈ s.trace.applied) :
    0 ≤ Counters.ofRecord charge.2.entry.record :=
  ofRecord_nonneg (grounded.logged (List.mem_map_of_mem applied))

/-- The books amount to no more than the log. -/
theorem Grounded.total_le (grounded : Grounded s) {keep : RowKey → Bool}
    (counted : CountedOnce keep) :
    0 ≤ total keep (databaseBookings s.host.database) ∧
      total keep (databaseBookings s.host.database) ≤ logTotal s.log := by
  have nonneg : ∀ booking ∈
      ledgerBookings (s.trace.applied.flatMap chargeRows),
        0 ≤ booking.2 := by
    intro booking listed
    rw [ledgerBookings_chargeRows] at listed
    obtain ⟨charge, applied, inCharge⟩ := List.mem_flatMap.mp listed
    obtain ⟨key, -, rfl⟩ := List.mem_map.mp inCharge
    exact rowAmount_nonneg (grounded.nonneg applied)
  have fewer : (ledgerBookings s.trace.ledger).Sublist
      (ledgerBookings (s.trace.applied.flatMap chargeRows)) :=
    grounded.balanced.rows.map _
  have same : tally (databaseBookings s.host.database) =
      tally (ledgerBookings s.trace.ledger) := by
    ext1 key
    rw [tally_databaseBookings grounded.balanced.traffic,
      grounded.balanced.amounts]
  rw [total_congr same]
  refine ⟨total_nonneg fun booking listed =>
    nonneg booking (fewer.subset listed), ?_⟩
  calc total keep (ledgerBookings s.trace.ledger)
      ≤ total keep (ledgerBookings
          (s.trace.applied.flatMap chargeRows)) :=
        total_le_of_sublist fewer nonneg
    _ = total keep (s.trace.applied.flatMap chargeBookings) := by
        rw [ledgerBookings_chargeRows]
    _ ≤ recordTotal s.trace.appliedEntries := by
        rw [recordTotal, Trace.appliedEntries, List.map_map]
        exact total_flatMap_le fun charge applied =>
          total_charge_le counted (grounded.nonneg applied)
    _ ≤ logTotal s.log := recordTotal_le grounded.once grounded.logged

theorem Grounded.amountAt_le (grounded : Grounded s) (key : RowKey) :
    0 ≤ amountAt s.host.database key ∧
      amountAt s.host.database key ≤ logTotal s.log := by
  rw [← tally_databaseBookings grounded.balanced.traffic, tally_eq_total]
  exact grounded.total_le (countedOnce_single key)

/-- No row overflows. -/
theorem Grounded.fits (grounded : Grounded s) (fits : LogFits s.log)
    (key : RowKey) : (amountAt s.host.database key).Fits := by
  obtain ⟨nonneg, below⟩ := grounded.amountAt_le key
  exact fits.of_le nonneg below

end Books

section Counting

variable [Build] {log : Bytes} {postings : List Posting}

omit [Build] in
theorem total_posting_le (key : CountKey) {posting : Posting}
    (nonneg : 0 ≤ Counters.ofRecord posting.entry.record) :
    total (fun other => decide (other = key)) posting.bookings ≤
      Counters.ofRecord posting.entry.record := by
  have bookings : posting.bookings =
      [(.usage posting.entry.record.username posting.entry.record.day,
          (Counters.ofRecord posting.entry.record).unsorted),
        (.destination posting.entry.record.username
          posting.entry.record.day posting.slot,
          Counters.ofRecord posting.entry.record)] := rfl
  cases key with
  | usage username day =>
      have less := Counters.unsorted_le nonneg
      rw [bookings, total]
      simp only [reduceCtorEq, decide_false, List.filter_cons,
        List.filter_nil, Bool.false_eq_true, ↓reduceIte]
      split_ifs
      · simpa using less
      · exact nonneg
  | destination username day slot =>
      rw [bookings, total]
      simp only [reduceCtorEq, decide_false, List.filter_cons,
        List.filter_nil, Bool.false_eq_true, ↓reduceIte]
      split_ifs
      · simp
      · exact nonneg

/-- What a stage of the pipeline counts is no more than the log amounts
to. -/
theorem tally_postings_le (once : (entriesIn postings).Nodup)
    (inside : entriesIn postings ⊆ logEntries log) (key : CountKey) :
    0 ≤ tally (postingBookings postings) key ∧
      tally (postingBookings postings) key ≤ logTotal log := by
  have nonneg : ∀ posting ∈ postings,
      0 ≤ Counters.ofRecord posting.entry.record := fun posting listed =>
    ofRecord_nonneg (inside (List.mem_map_of_mem listed))
  rw [tally_eq_total]
  refine ⟨total_nonneg fun booking listed => ?_, ?_⟩
  · obtain ⟨posting, member, inPosting⟩ := List.mem_flatMap.mp listed
    rcases List.mem_pair.mp inPosting with rfl | rfl
    · exact Counters.unsorted_nonneg (nonneg posting member)
    · exact nonneg posting member
  calc total _ (postingBookings postings)
      ≤ recordTotal (entriesIn postings) := by
        rw [recordTotal, entriesIn, List.map_map]
        exact total_flatMap_le fun posting listed =>
          total_posting_le key (nonneg posting listed)
    _ ≤ logTotal log := recordTotal_le once inside

/-- No counter in the process and no row overflows. -/
structure CountersFit (s : Pipeline) : Prop where
  pending : ∀ key, (tally s.aggregator.bookings key).Fits
  inFlight : ∀ key, (tally (bookingsOf s.inFlight) key).Fits
  retried : ∀ key, (tally (bookingsOf s.retry) key).Fits
  rows : ∀ key, (amountAt s.host.database key).Fits

theorem Grounded.countersFit {start : Nat} {s : Pipeline}
    (grounded : Grounded s) (held : Accountable start s)
    (fits : LogFits s.log) : CountersFit s := by
  have published : s.trace.enqueued.Nodup := by
    rw [held.tailed.handed]
    exact entriesBetween_nodup
  have placed : s.places.flatten.Nodup := held.placed.nodup_iff.mp published
  have stage : ∀ postings, (entriesIn postings).Sublist s.places.flatten →
      ∀ key, (tally (postingBookings postings) key).Fits := by
    intro postings part key
    obtain ⟨nonneg, below⟩ := tally_postings_le (part.nodup placed)
      (fun entry listed => (held.bounds
        (held.placed.mem_iff.mpr (part.subset listed))).1) key
    exact fits.of_le nonneg below
  have counted := held.charged.counted
  refine ⟨?_, ?_, ?_, grounded.fits fits⟩
  · rw [counted.pending]
    exact stage _ (List.sublist_flatten_of_mem (by simp [Pipeline.places]))
  · rw [counted.batch]
    exact stage _ (List.sublist_flatten_of_mem (by simp [Pipeline.places]))
  · rw [counted.retried]
    exact stage _ (List.sublist_flatten_of_mem (by simp [Pipeline.places]))

end Counting

end Xoxproxy.Analytics
