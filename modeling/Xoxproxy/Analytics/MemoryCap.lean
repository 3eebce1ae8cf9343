import Xoxproxy.Analytics.Stages

/-!
# How much the pipeline remembers

The cap on destinations is kept by every generation of counters.  A failed
flush keeps its generation for the next one, beside the counters that
follow.
-/

namespace Xoxproxy.Analytics

open AssociationMaps Tallies

/-- A destination entry of a user's day. -/
def CountKey.isEntry (username day : String) : CountKey → Bool
  | .usage _ _ => false
  | .destination name date _ => name = username && date = day

/-- The number of destination entries of a user's day. -/
def entryCount (username day : String)
    (bookings : List (CountKey × Counters)) : Nat :=
  bookings.countP fun booking => booking.1.isEntry username day

/-- The pairs of ports and protocols that some postings of a user's day
have. -/
def pairsOf (username day : String) (postings : List Posting) :
    Finset (Int × String) :=
  ((postings.filter fun posting =>
      posting.entry.record.username = username &&
        posting.entry.record.day = day).map fun posting =>
    (posting.entry.record.port, posting.entry.record.protocol)).toFinset

/-- Every record that the process has counted. -/
def Trace.counted (trace : Trace) : List Posting :=
  trace.committed.map Prod.snd ++ trace.discarded ++ trace.retried ++
    trace.batch ++ trace.pending

namespace Pipeline

variable (options : Options) (s : Pipeline) (username day : String)

/-- The pairs seen of a user's day. -/
def pairs : Finset (Int × String) := pairsOf username day s.trace.counted

/-- The entries that the retry batch holds for a user's day. -/
def retryEntries : Nat := entryCount username day (bookingsOf s.retry)

/-- The entries that the aggregator and the retry batch hold. -/
def heldEntries : Nat :=
  entryCount username day s.aggregator.bookings +
    s.retryEntries username day

/-- The cap, and one overflow entry for every pair. -/
def MemoryCapped : Prop :=
  ∀ username day,
    s.heldEntries username day ≤
      options.maxDestinationsPerUser + (s.pairs username day).card

end Pipeline

theorem entryCount_append (username day : String)
    (first second : List (CountKey × Counters)) :
    entryCount username day (first ++ second) =
      entryCount username day first + entryCount username day second :=
  List.countP_append

theorem entryCount_perm {username day : String}
    {first second : List (CountKey × Counters)}
    (reordered : first.Perm second) :
    entryCount username day first = entryCount username day second :=
  reordered.countP_eq _

theorem entryCount_day (username day name date : String) (agg : DayAgg) :
    entryCount username day (agg.bookings name date) =
      if name = username ∧ date = day then agg.dests.length else 0 := by
  rw [entryCount, DayAgg.bookings, List.countP_cons, List.countP_map]
  by_cases here : name = username ∧ date = day
  · simp [CountKey.isEntry, here, Function.comp_def]
  · rw [if_neg here]
    simp only [CountKey.isEntry, Function.comp_def, Bool.false_eq_true,
      if_false, Nat.add_zero, List.countP_eq_zero, Bool.and_eq_true,
      decide_eq_true_eq]
    exact fun _ _ => here

/-- Whether a record starts a new entry. -/
def Aggregator.opens (aggregator : Aggregator) (record : Record) : Prop :=
  find? (aggregator.slot record) (aggregator.dayOf record).dests = none

instance (aggregator : Aggregator) (record : Record) :
    Decidable (aggregator.opens record) :=
  inferInstanceAs (Decidable (_ = none))

section Adding

variable (username day : String) (maxDests : Nat) (record : Record)

/-- The entries that a record adds. -/
def openedEntries (aggregator : Aggregator) : Nat :=
  if record.username = username ∧ record.day = day ∧
      aggregator.opens record then 1 else 0

theorem entryCount_userAdd (user : UserAgg) :
    entryCount username day
        ((user.add maxDests record).bookings record.username) =
      entryCount username day (user.bookings record.username) +
        if record.username = username ∧ record.day = day ∧
          find? ((user.day record.day).slot maxDests record)
            (user.day record.day).dests = none then 1 else 0 := by
  apply countP_adjust
  change entryCount username day (((find? record.day user.days).getD
    {}).add maxDests record |>.bookings record.username record.day) = _
  rw [entryCount_day, DayAgg.add]
  have fresh : ((find? record.day user.days).elim []
      fun agg : DayAgg => agg.bookings record.username record.day).countP
        (fun booking => booking.1.isEntry username day) =
      if record.username = username ∧ record.day = day then
        (user.day record.day).dests.length else 0 := by
    rw [UserAgg.day]
    cases find? record.day user.days with
    | none => simp
    | some agg => exact entryCount_day username day _ _ agg
  rw [fresh, length_adjust]
  by_cases here : record.username = username ∧ record.day = day
  · rw [if_pos here, if_pos here]
    simp [here.1, here.2, UserAgg.day]
  · rw [if_neg here, if_neg here, if_neg (fun all => here ⟨all.1, all.2.1⟩)]

theorem entryCount_addUser (aggregator : Aggregator) :
    entryCount username day (aggregator.addUser record).bookings =
      entryCount username day aggregator.bookings +
        openedEntries username day record aggregator := by
  apply countP_adjust
  have grown := entryCount_userAdd username day aggregator.maxDests record
    ((find? record.username aggregator.users).getD {})
  refine grown.trans ?_
  have fresh : entryCount username day
      (((find? record.username aggregator.users).getD {}).bookings
        record.username) =
      ((find? record.username aggregator.users).elim []
        (UserAgg.bookings record.username)).countP
          fun booking => booking.1.isEntry username day := by
    cases find? record.username aggregator.users with
    | none => rfl
    | some user => rfl
  rw [fresh]
  rfl

/-- `Add` leaves the counters to `addUser`. -/
theorem add_cases (aggregator : Aggregator) :
    ∃ live : Aggregator, live.users = aggregator.users ∧
      live.maxDests = aggregator.maxDests ∧
      aggregator.add record =
        if record.unattributable then live else live.addUser record := by
  let live : Aggregator :=
    { aggregator.addToday record with
      ingested := aggregator.ingested + 1
      ring := aggregator.ring.map fun ring => ring.add record }
  exact ⟨live, rfl, rfl, rfl⟩

theorem openedEntries_congr {aggregator other : Aggregator}
    (users : other.users = aggregator.users)
    (cap : other.maxDests = aggregator.maxDests) :
    openedEntries username day record other =
      openedEntries username day record aggregator := by
  have same : other.opens record ↔ aggregator.opens record := by
    rw [Aggregator.opens, Aggregator.opens, Aggregator.slot,
      Aggregator.slot, Aggregator.dayOf, Aggregator.dayOf, Aggregator.day,
      Aggregator.day, users, cap]
  rw [openedEntries, openedEntries]
  exact if_congr (and_congr_right fun _ => and_congr_right fun _ => same)
    rfl rfl

theorem entryCount_add (aggregator : Aggregator) :
    entryCount username day (aggregator.add record).bookings =
      entryCount username day aggregator.bookings +
        if record.unattributable then 0
        else openedEntries username day record aggregator := by
  obtain ⟨live, users, cap, added⟩ := add_cases record aggregator
  have bookings : live.bookings = aggregator.bookings := by
    rw [Aggregator.bookings, Aggregator.bookings, users]
  rw [added]
  by_cases nobody : record.unattributable = true
  · rw [if_pos nobody, if_pos nobody, bookings, Nat.add_zero]
  · rw [if_neg nobody, if_neg nobody, entryCount_addUser, bookings,
      openedEntries_congr username day record users cap]

end Adding

theorem bookings_reordered {first second : PendingDelta}
    (reordered : Reordered first second) :
    second.bookings.Perm first.bookings := by
  rw [PendingDelta.bookings, PendingDelta.bookings, reordered.username]
  exact (reordered.usage.map _).append (reordered.dests.map _)

theorem bookings_pendingDelta (name : String) (user : UserAgg) :
    (pendingDelta name user).bookings.Perm (user.bookings name) := by
  have shape : (pendingDelta name user).bookings =
      user.days.map (fun entry =>
        (CountKey.usage name entry.1, entry.2.usage.unsorted)) ++
      user.days.flatMap fun entry => entry.2.dests.map fun dest =>
        (CountKey.destination name entry.1 dest.1, dest.2) := by
    simp only [PendingDelta.bookings, pendingDelta, List.map_map,
      List.map_flatMap]
    rfl
  rw [shape]
  exact List.map_append_flatMap_perm user.days _ _

theorem bookings_takePending (aggregator : Aggregator) (order : TakeOrder) :
    (bookingsOf (aggregator.takePending order).1).Perm
      aggregator.bookings := by
  obtain ⟨reordered, permuted, visited⟩ :=
    order.visits (aggregator.users.map fun entry =>
      pendingDelta entry.1 entry.2)
  have visitedPerm : (bookingsOf (aggregator.takePending order).1).Perm
      (bookingsOf reordered) := by
    rw [Aggregator.takePending]
    generalize order.visit _ = result at visited
    clear permuted
    induction visited with
    | nil => exact .refl _
    | cons first _ inductionHypothesis =>
        exact (bookings_reordered first).append inductionHypothesis
  refine visitedPerm.trans ((permuted.flatMap_right _).trans ?_)
  rw [Aggregator.bookings, List.flatMap_map]
  exact List.Perm.flatMap_left _ fun entry _ =>
    bookings_pendingDelta entry.1 entry.2

/-- A day within its cap: the entries beyond the tracked ones are overflow
entries of pairs that were seen. -/
structure DayAgg.Within
    (maxDests : Nat) (pairs : Finset (Int × String)) (day : DayAgg) :
    Prop where
  tracked : day.tracked ≤ maxDests
  overflow : ∃ extra ⊆ pairs,
    day.dests.length ≤ day.tracked + extra.card ∧
      ∀ pair ∈ extra,
        find? (DestKey.mk otherHost pair.1 pair.2) day.dests ≠ none

theorem within_fresh (maxDests : Nat) (pairs : Finset (Int × String)) :
    ({} : DayAgg).Within maxDests pairs where
  tracked := Nat.zero_le _
  overflow := ⟨∅, Finset.empty_subset _, Nat.le_refl _, by simp⟩

theorem DayAgg.Within.mono {maxDests : Nat} {day : DayAgg}
    {pairs more : Finset (Int × String)}
    (within : day.Within maxDests pairs) (grows : pairs ⊆ more) :
    day.Within maxDests more := by
  obtain ⟨extra, known, bound, present⟩ := within.overflow
  exact ⟨within.tracked, extra, known.trans grows, bound, present⟩

theorem DayAgg.Within.length_le {maxDests : Nat} {day : DayAgg}
    {pairs : Finset (Int × String)} (within : day.Within maxDests pairs) :
    day.dests.length ≤ maxDests + pairs.card := by
  obtain ⟨extra, known, bound, -⟩ := within.overflow
  have size := Finset.card_le_card known
  have tracked := within.tracked
  omega

/-- Adding a record keeps a day within its cap. -/
theorem DayAgg.Within.add {maxDests : Nat} {day : DayAgg}
    {pairs : Finset (Int × String)} (within : day.Within maxDests pairs)
    {record : Record} (seen : (record.port, record.protocol) ∈ pairs) :
    (day.add maxDests record).Within maxDests pairs := by
  obtain ⟨extra, known, bound, present⟩ := within.overflow
  have kept : ∀ pair ∈ extra,
      find? (DestKey.mk otherHost pair.1 pair.2)
        (day.add maxDests record).dests ≠ none := by
    intro pair member
    rw [DayAgg.add, find?_adjust]
    split
    · exact Option.some_ne_none _
    · exact present pair member
  have length : (day.add maxDests record).dests.length =
      day.dests.length +
        if find? (day.slot maxDests record) day.dests = none then 1
        else 0 := length_adjust
  by_cases tracks : day.tracks maxDests record = true
  · have counted : (day.add maxDests record).tracked = day.tracked + 1 :=
      if_pos tracks
    have room : day.tracked < maxDests := by
      simp only [DayAgg.tracks, Bool.and_eq_true, decide_eq_true_eq]
        at tracks
      exact tracks.2
    refine ⟨by omega, extra, known, ?_, kept⟩
    rw [length, counted]
    split <;> omega
  · have counted : (day.add maxDests record).tracked = day.tracked :=
      if_neg tracks
    refine ⟨by rw [counted]; exact within.tracked, ?_⟩
    by_cases follows : day.follows record = true
    · have slot : day.slot maxDests record = record.destination := by
        simp [DayAgg.slot, DayAgg.overflows, follows]
      have there : find? record.destination day.dests ≠ none := by
        rw [DayAgg.follows] at follows
        exact Option.isSome_iff_ne_none.mp follows
      refine ⟨extra, known, ?_, kept⟩
      rw [length, counted, slot, if_neg there]
      exact bound
    · have slot : day.slot maxDests record = record.overflow := by
        simp [DayAgg.slot, DayAgg.overflows, follows, tracks]
      rw [slot] at length
      by_cases new : find? record.overflow day.dests = none
      · have outside : (record.port, record.protocol) ∉ extra := by
          intro member
          exact present _ member new
        refine ⟨insert (record.port, record.protocol) extra,
          Finset.insert_subset seen known, ?_, ?_⟩
        · rw [length, counted, if_pos new,
            Finset.card_insert_of_notMem outside]
          omega
        · intro pair member
          rcases Finset.mem_insert.mp member with rfl | old
          · have own : find? record.overflow
                (day.add maxDests record).dests ≠ none := by
              rw [DayAgg.add, slot, find?_adjust, if_pos rfl]
              exact Option.some_ne_none _
            exact own
          · exact kept pair old
      · refine ⟨extra, known, ?_, kept⟩
        rw [length, counted, if_neg new]
        exact bound

/-- Every user and every day has one set of counters, and these are within
the cap. -/
structure Aggregator.Within
    (pairs : String → String → Finset (Int × String))
    (aggregator : Aggregator) : Prop where
  users : (keys aggregator.users).Nodup
  days : ∀ entry ∈ aggregator.users, (keys entry.2.days).Nodup
  within : ∀ entry ∈ aggregator.users, ∀ day ∈ entry.2.days,
    day.2.Within aggregator.maxDests (pairs entry.1 day.1)

theorem Aggregator.Within.entryCount_le
    {pairs : String → String → Finset (Int × String)}
    {aggregator : Aggregator} (within : aggregator.Within pairs)
    (username day : String) :
    entryCount username day aggregator.bookings ≤
      aggregator.maxDests + (pairs username day).card := by
  have users : entryCount username day aggregator.bookings =
      ((find? username aggregator.users).elim []
        (UserAgg.bookings username)).countP
          fun booking => booking.1.isEntry username day := by
    apply countP_flatMap within.users
    intro other user different
    rw [UserAgg.bookings, List.countP_flatMap, List.sum_eq_zero]
    intro count member
    obtain ⟨entry, -, rfl⟩ := List.mem_map.mp member
    refine (entryCount_day username day other entry.1 entry.2).trans ?_
    exact if_neg fun same => different same.1
  rw [users]
  cases found : find? username aggregator.users with
  | none => exact Nat.zero_le _
  | some user =>
      have listed := find?_mem found
      have days : entryCount username day (user.bookings username) =
          ((find? day user.days).elim []
            fun agg : DayAgg => agg.bookings username day).countP
              fun booking => booking.1.isEntry username day := by
        apply countP_flatMap (within.days _ listed)
        intro other agg different
        refine (entryCount_day username day username other agg).trans ?_
        exact if_neg fun same => different same.2
      refine Nat.le_trans (Nat.le_of_eq days) ?_
      cases there : find? day user.days with
      | none => exact Nat.zero_le _
      | some agg =>
          have bound := (within.within _ listed _ (find?_mem there)).length_le
          refine Nat.le_trans (Nat.le_of_eq
            (entryCount_day username day username day agg)) ?_
          rw [if_pos ⟨rfl, rfl⟩]
          exact bound

theorem Aggregator.Within.mono
    {pairs more : String → String → Finset (Int × String)}
    {aggregator : Aggregator} (within : aggregator.Within pairs)
    (grows : ∀ username day, pairs username day ⊆ more username day) :
    aggregator.Within more where
  users := within.users
  days := within.days
  within := fun entry member day listed =>
    (within.within entry member day listed).mono (grows _ _)

theorem Aggregator.Within.of_same
    {pairs : String → String → Finset (Int × String)}
    {aggregator other : Aggregator} (within : aggregator.Within pairs)
    (cap : other.maxDests = aggregator.maxDests)
    (users : other.users = aggregator.users) : other.Within pairs := by
  refine ⟨?_, ?_, ?_⟩
  · rw [users]
    exact within.users
  · rw [users]
    exact within.days
  · rw [users, cap]
    exact within.within

theorem Aggregator.Within.addUser
    {pairs : String → String → Finset (Int × String)}
    {aggregator : Aggregator} (within : aggregator.Within pairs)
    {record : Record}
    (seen : (record.port, record.protocol) ∈
      pairs record.username record.day) :
    (aggregator.addUser record).Within pairs where
  users := keys_adjust_nodup within.users
  days := by
    apply @forall_adjust _ _ _ _ _ _
      (fun _ (user : UserAgg) => (keys user.days).Nodup) within.days
    apply keys_adjust_nodup
    cases found : find? record.username aggregator.users with
    | none => exact List.nodup_nil
    | some user => exact within.days _ (find?_mem found)
  within := by
    apply @forall_adjust _ _ _ _ _ _
      (fun name (user : UserAgg) => ∀ day ∈ user.days,
        day.2.Within aggregator.maxDests (pairs name day.1)) within.within
    have old : ∀ day ∈ ((find? record.username aggregator.users).getD
        {}).days,
        day.2.Within aggregator.maxDests
          (pairs record.username day.1) := by
      cases found : find? record.username aggregator.users with
      | none => exact fun _ member => (by cases member)
      | some user => exact within.within _ (find?_mem found)
    apply @forall_adjust _ _ _ _ _ _
      (fun name (day : DayAgg) => day.Within aggregator.maxDests
        (pairs record.username name)) old
    apply DayAgg.Within.add ?_ seen
    cases found : find? record.day ((find? record.username
        aggregator.users).getD {}).days with
    | none => exact within_fresh _ _
    | some day => exact old _ (find?_mem found)

/-! ## The pipeline -/

theorem mem_pairsOf {username day : String} {postings : List Posting}
    {pair : Int × String} :
    pair ∈ pairsOf username day postings ↔
      ∃ posting ∈ postings, posting.entry.record.username = username ∧
        posting.entry.record.day = day ∧
        (posting.entry.record.port, posting.entry.record.protocol) =
          pair := by
  simp [pairsOf, and_assoc]

theorem pairsOf_mono {first second : List Posting}
    (grows : ∀ posting ∈ first, posting ∈ second)
    (username day : String) :
    pairsOf username day first ⊆ pairsOf username day second := by
  intro pair member
  obtain ⟨posting, listed, same⟩ := mem_pairsOf.mp member
  exact mem_pairsOf.mpr ⟨posting, grows posting listed, same⟩

/-- The counters of the aggregator are within the cap, and so is
everything held, with the batch of a flush that is under way. -/
structure Remembers (options : Options) (s : Pipeline) : Prop where
  cap : s.aggregator.maxDests = options.maxDestinationsPerUser
  within : s.aggregator.Within s.pairs
  idle : s.flight ≠ none → s.aggregator.users = []
  held : ∀ username day,
    s.heldEntries username day +
        entryCount username day (bookingsOf s.inFlight) ≤
      options.maxDestinationsPerUser + (s.pairs username day).card

/-- What is held stays the same, while more may have been seen. -/
structure SameMemory (s after : Pipeline) : Prop where
  cap : after.aggregator.maxDests = s.aggregator.maxDests
  users : after.aggregator.users = s.aggregator.users
  retry : after.retry = s.retry
  flight : after.flight = s.flight
  counted : ∀ posting ∈ s.trace.counted, posting ∈ after.trace.counted

variable {options : Options} {s after : Pipeline}

theorem Remembers.of_same (remembers : Remembers options s)
    (same : SameMemory s after) : Remembers options after := by
  have grows : ∀ username day,
      s.pairs username day ⊆ after.pairs username day :=
    pairsOf_mono same.counted
  refine ⟨?_, ?_, ?_, ?_⟩
  · rw [same.cap]
    exact remembers.cap
  · exact (remembers.within.of_same same.cap same.users).mono grows
  · rw [same.users, same.flight]
    exact remembers.idle
  · intro username day
    have held := remembers.held username day
    have size := Finset.card_le_card (grows username day)
    rw [Pipeline.heldEntries, Pipeline.retryEntries, Pipeline.inFlight,
      Aggregator.bookings, same.users, same.retry, same.flight]
    rw [Pipeline.heldEntries, Pipeline.retryEntries, Pipeline.inFlight,
      Aggregator.bookings] at held
    omega

theorem counted_add (trace : Trace) {entry : Entry} (slot : DestKey)
    (somebody : entry.record.unattributable = false) :
    (trace.add entry slot).counted = trace.counted ++ [⟨entry, slot⟩] := by
  have attributable : ¬entry.record.unattributable = true := by
    simp [somebody]
  rw [Trace.add, if_neg attributable]
  simp [Trace.counted]

theorem pairs_addEntry {base : Pipeline} {entry : Entry}
    (somebody : entry.record.unattributable = false) :
    (base.addEntry entry).pairs entry.record.username entry.record.day =
      insert (entry.record.port, entry.record.protocol)
        (base.pairs entry.record.username entry.record.day) := by
  ext pair
  rw [Pipeline.pairs, Pipeline.addEntry, counted_add _ _ somebody,
    mem_pairsOf, Finset.mem_insert, Pipeline.pairs, mem_pairsOf]
  constructor
  · rintro ⟨posting, member, name, date, same⟩
    rcases List.mem_append.mp member with old | new
    · exact Or.inr ⟨posting, old, name, date, same⟩
    · rw [List.mem_singleton.mp new] at same
      exact Or.inl same.symm
  · rintro (rfl | ⟨posting, old, same⟩)
    · exact ⟨_, List.mem_append_right _ (List.mem_singleton_self _),
        rfl, rfl, rfl⟩
    · exact ⟨posting, List.mem_append_left _ old, same⟩

/-- What is held after a record is added. -/
theorem heldEntries_addEntry (base : Pipeline) (entry : Entry)
    (username day : String) :
    (base.addEntry entry).heldEntries username day =
      base.heldEntries username day +
        if entry.record.unattributable then 0
        else openedEntries username day entry.record base.aggregator := by
  have grown := entryCount_add username day entry.record base.aggregator
  change entryCount username day (base.aggregator.add
    entry.record).bookings + base.retryEntries username day = _
  rw [grown, Pipeline.heldEntries, Nat.add_right_comm]

/-- Where the retry batch holds entries of a record's user and day, there
is room for one more. -/
def RoomFor (options : Options) (s : Pipeline) (entry : Entry) : Prop :=
  entry.record.unattributable = false → s.aggregator.opens entry.record →
    s.retryEntries entry.record.username entry.record.day ≠ 0 →
      s.heldEntries entry.record.username entry.record.day + 1 ≤
        options.maxDestinationsPerUser +
          (insert (entry.record.port, entry.record.protocol)
            (s.pairs entry.record.username entry.record.day)).card

theorem sameMemory_unattributable (s : Pipeline) {entry : Entry}
    (nobody : entry.record.unattributable = true) :
    SameMemory s (s.addEntry entry) := by
  obtain ⟨live, users, cap, added⟩ := add_cases entry.record s.aggregator
  rw [if_pos nobody] at added
  refine ⟨?_, ?_, rfl, rfl, ?_⟩
  · exact (congrArg Aggregator.maxDests added).trans cap
  · exact (congrArg Aggregator.users added).trans users
  · intro posting member
    rw [Pipeline.addEntry, Trace.add, if_pos nobody]
    exact member

theorem Remembers.addEntry (remembers : Remembers options s)
    (entry : Entry) (idle : s.flight = none)
    (room : RoomFor options s entry) :
    Remembers options (s.addEntry entry) := by
  cases somebody : entry.record.unattributable with
  | true => exact remembers.of_same (sameMemory_unattributable s somebody)
  | false =>
      have grows : ∀ username day,
          s.pairs username day ⊆ (s.addEntry entry).pairs username day := by
        apply pairsOf_mono
        intro posting member
        rw [Pipeline.addEntry, counted_add _ _ somebody]
        exact List.mem_append_left _ member
      have seen : (entry.record.port, entry.record.protocol) ∈
          (s.addEntry entry).pairs entry.record.username
            entry.record.day := by
        rw [pairs_addEntry somebody]
        exact Finset.mem_insert_self _ _
      have attributable : ¬entry.record.unattributable = true := by
        simp [somebody]
      obtain ⟨live, users, sameCap, sum⟩ :=
        add_cases entry.record s.aggregator
      rw [if_neg attributable] at sum
      have added : (s.aggregator.add entry.record).Within
          (s.addEntry entry).pairs := by
        rw [sum]
        apply Aggregator.Within.addUser ?_ seen
        exact (remembers.within.mono grows).of_same sameCap users
      have cap : (s.aggregator.add entry.record).maxDests =
          s.aggregator.maxDests :=
        (congrArg Aggregator.maxDests sum).trans sameCap
      refine ⟨cap.trans remembers.cap, added, fun flying =>
        absurd idle flying, ?_⟩
      intro username day
      have held := remembers.held username day
      have size := Finset.card_le_card (grows username day)
      have noFlight : (s.addEntry entry).inFlight = [] := by
        change s.flight.getD [] = []
        rw [idle]
        rfl
      rw [heldEntries_addEntry, if_neg attributable, openedEntries,
        noFlight]
      change _ + 0 ≤ _
      by_cases opened : entry.record.username = username ∧
          entry.record.day = day ∧ s.aggregator.opens entry.record
      · obtain ⟨rfl, rfl, opens⟩ := opened
        rw [if_pos ⟨rfl, rfl, opens⟩]
        by_cases retried : s.retryEntries entry.record.username
            entry.record.day = 0
        · have own := added.entryCount_le entry.record.username
            entry.record.day
          have grown := heldEntries_addEntry s entry entry.record.username
            entry.record.day
          rw [if_neg attributable, openedEntries,
            if_pos ⟨rfl, rfl, opens⟩] at grown
          have split : (s.addEntry entry).heldEntries entry.record.username
              entry.record.day = entryCount entry.record.username
                entry.record.day (s.aggregator.add entry.record).bookings +
                  s.retryEntries entry.record.username
                    entry.record.day := rfl
          rw [cap, remembers.cap] at own
          omega
        · have fits := room somebody opens retried
          rw [← pairs_addEntry somebody] at fits
          exact fits
      · rw [if_neg opened]
        omega

/-- The condition for a step of a run. -/
def Room (options : Options) (s : Pipeline) (action : PipelineAction) :
    Prop :=
  ∀ entry, s.addedBy options action = some entry →
    RoomFor options s entry

theorem remembers_initial (options : Options) :
    Remembers options (Pipeline.initial options) where
  cap := rfl
  within := ⟨List.nodup_nil, fun _ member => (by cases member),
    fun _ member => (by cases member)⟩
  idle := fun flying => absurd rfl flying
  held := fun _ _ => Nat.zero_le _

theorem counted_commit (trace : Trace) (idOf : String → Int)
    (usage : List UsageDelta) (dests : List DestinationDelta) :
    ∀ posting ∈ trace.counted,
      posting ∈ (trace.commit idOf usage dests).counted := by
  intro posting member
  simp only [Trace.counted, List.mem_append] at member
  simp only [Trace.counted, Trace.commit, List.mem_append, List.map_append,
    List.map_map, List.mem_map, List.mem_filter, decide_eq_true_eq,
    Function.comp_apply, List.not_mem_nil]
  by_cases unknown : idOf posting.entry.record.username = 0
  · rcases member with (((old | gone) | kept) | here) | pending
    · obtain ⟨charge, listed, same⟩ := List.mem_map.mp old
      exact Or.inl (Or.inl (Or.inl (Or.inl (Or.inl
        ⟨charge, listed, same⟩))))
    · exact Or.inl (Or.inl (Or.inl (Or.inr (Or.inl gone))))
    · exact Or.inl (Or.inl (Or.inr kept))
    · exact Or.inl (Or.inl (Or.inl (Or.inr (Or.inr ⟨here, unknown⟩))))
    · exact Or.inr pending
  · rcases member with (((old | gone) | kept) | here) | pending
    · obtain ⟨charge, listed, same⟩ := List.mem_map.mp old
      exact Or.inl (Or.inl (Or.inl (Or.inl (Or.inl
        ⟨charge, listed, same⟩))))
    · exact Or.inl (Or.inl (Or.inl (Or.inr (Or.inl gone))))
    · exact Or.inl (Or.inl (Or.inr kept))
    · exact Or.inl (Or.inl (Or.inl (Or.inl (Or.inr
        ⟨posting, ⟨here, unknown⟩, rfl⟩))))
    · exact Or.inr pending

theorem counted_keep {trace : Trace} (empty : trace.retried = []) :
    ∀ posting ∈ trace.counted, posting ∈ trace.keep.counted := by
  intro posting member
  simpa [Trace.counted, Trace.keep, empty] using member

theorem counted_take {trace : Trace} (empty : trace.batch = []) :
    ∀ posting ∈ trace.counted, posting ∈ trace.take.counted := by
  intro posting member
  simpa [Trace.counted, Trace.take, empty, or_assoc] using member

/-- The batch that is in flight is given up or committed. -/
theorem Remembers.land (remembers : Remembers options s)
    (aggregator : after.aggregator = s.aggregator)
    (idle : after.flight = none)
    (shrinks : ∀ username day,
      after.retryEntries username day ≤ s.retryEntries username day +
        entryCount username day (bookingsOf s.inFlight))
    (counted : ∀ posting ∈ s.trace.counted,
      posting ∈ after.trace.counted) : Remembers options after := by
  have grows : ∀ username day,
      s.pairs username day ⊆ after.pairs username day :=
    pairsOf_mono counted
  refine ⟨?_, ?_, fun flying => absurd idle flying, ?_⟩
  · rw [aggregator]
    exact remembers.cap
  · rw [aggregator]
    exact remembers.within.mono grows
  · intro username day
    have held := remembers.held username day
    have size := Finset.card_le_card (grows username day)
    have kept := shrinks username day
    have none : entryCount username day (bookingsOf after.inFlight) =
        0 := by
      rw [Pipeline.inFlight, idle]
      rfl
    rw [Pipeline.heldEntries] at held
    rw [Pipeline.heldEntries, none, aggregator]
    omega

theorem Remembers.takePending (remembers : Remembers options s)
    (empty : s.trace.batch = []) (order : TakeOrder) :
    Remembers options (s.takePending order) where
  cap := remembers.cap
  within := ⟨List.nodup_nil, fun _ member => (by cases member),
    fun _ member => (by cases member)⟩
  idle := fun _ => rfl
  held := by
    intro username day
    have held := remembers.held username day
    have size := Finset.card_le_card
      (pairsOf_mono (counted_take empty) username day)
    have taken : entryCount username day
        (bookingsOf (s.aggregator.takePending order).1) =
          entryCount username day s.aggregator.bookings :=
      entryCount_perm (bookings_takePending s.aggregator order)
    have flight : (s.takePending order).inFlight =
        s.retry ++ (s.aggregator.takePending order).1 := rfl
    have nothing : (s.takePending order).heldEntries username day = 0 :=
      rfl
    rw [nothing, flight, bookingsOf_append, entryCount_append, taken]
    rw [Pipeline.heldEntries, Pipeline.retryEntries] at held
    change 0 + _ ≤ options.maxDestinationsPerUser +
      (pairsOf username day s.trace.take.counted).card
    change _ ≤ options.maxDestinationsPerUser +
      (pairsOf username day s.trace.counted).card at held
    omega

theorem Remembers.capped (remembers : Remembers options s) :
    s.MemoryCapped options := by
  intro username day
  exact Nat.le_trans (Nat.le_add_right _ _) (remembers.held username day)

section Runs

variable [Build] {action : PipelineAction}

theorem Remembers.move (remembers : Remembers options s)
    (counted : Counted s) (room : Room options s action)
    (move : Move options s action after) : Remembers options after := by
  cases move with
  | direct choice entry rest handing waiting unbuffered added =>
      have idle : s.flight = none := by rw [Pipeline.flight, waiting]
      have moved : Remembers options
          { s with tailer := { s.tailer with phase := .handing rest } } :=
        remembers.of_same ⟨rfl, rfl, rfl, rfl, fun _ member => member⟩
      exact moved.addEntry entry idle (room entry added)
  | receive choice entry rest ready queued added =>
      have idle : s.flight = none := by
        rw [Pipeline.flight]
        rcases ready with phase | phase <;> rw [phase]
      have moved : Remembers options { s with queue := rest } :=
        remembers.of_same ⟨rfl, rfl, rfl, rfl, fun _ member => member⟩
      exact moved.addEntry entry idle (room entry added)
  | beginFlush choice waiting =>
      have idle : s.flight = none := by rw [Pipeline.flight, waiting]
      exact remembers.of_same
        ⟨rfl, rfl, rfl, idle.symm, fun _ member => member⟩
  | take choice draining drained =>
      have idle : s.flight = none := by rw [Pipeline.flight, draining]
      exact remembers.takePending (counted.batch_eq_nil idle) choice.order
  | skip choice locating same =>
      exact remembers.land rfl rfl (fun _ _ => Nat.le_add_right _ _)
        fun _ member => member
  | locate choice pending locating =>
      have flying : s.flight = some pending := by
        rw [Pipeline.flight, locating]
      exact remembers.of_same
        ⟨rfl, rfl, rfl, flying.symm, fun _ member => member⟩
  | resolve choice resolution delta rest id resolving =>
      have flying : s.flight = some resolution.pending := by
        rw [Pipeline.flight, resolving]
      refine remembers.of_same ⟨rfl, rfl, rfl, ?_, fun _ member => member⟩
      rw [flying]
      exact congrArg some (resolution.charge_pending delta rest id)
  | learn choice resolution delta rest id resolving =>
      have flying : s.flight = some resolution.pending := by
        rw [Pipeline.flight, resolving]
      refine remembers.of_same ⟨rfl, rfl, rfl, ?_, fun _ member => member⟩
      rw [flying]
      exact congrArg some ((resolution.know delta.username
        id).charge_pending delta rest id)
  | keep choice resolution resolving =>
      have flying : s.flight = some resolution.pending := by
        rw [Pipeline.flight, resolving]
      have empty : s.retry = [] := by
        apply counted.single.resolve_left
        rw [flying]
        exact Option.some_ne_none _
      refine remembers.land rfl rfl ?_
        (counted_keep (counted.retried_eq_nil empty))
      intro username day
      rw [Pipeline.inFlight, flying]
      exact Nat.le_add_left _ _
  | commit choice resolution database resolving finished done =>
      exact remembers.land rfl rfl (fun _ _ => Nat.le_add_right _ _)
        (counted_commit _ _ _ _)
  | restart =>
      exact ⟨rfl, ⟨List.nodup_nil, fun _ member => (by cases member),
        fun _ member => (by cases member)⟩, fun flying => absurd rfl flying,
        fun _ _ => Nat.zero_le _⟩
  | _ =>
      exact remembers.of_same ⟨rfl, rfl, rfl, rfl, fun _ member => member⟩

/-- An action that adds a record does what `Add` does to the counters. -/
theorem act_of_addedBy {entry : Entry}
    (added : s.addedBy options action = some entry) :
    ∃ base : Pipeline, s.act options action = base.addEntry entry ∧
      base.aggregator = s.aggregator ∧ base.retry = s.retry ∧
      base.trace = s.trace := by
  cases action with
  | loop choice =>
      rw [Pipeline.act, Pipeline.stepLoop]
      cases phase : s.loop with
      | locating | resolving => simp [Pipeline.addedBy, phase] at added
      | waiting =>
          by_cases flush : choice.flush = true
          · simp [Pipeline.addedBy, phase, flush] at added
          · cases queued : s.queue with
            | nil => simp [Pipeline.addedBy, phase, flush, queued] at added
            | cons first rest =>
                simp only [Pipeline.addedBy, phase, flush, queued,
                  Bool.false_eq_true, if_false, List.head?_cons,
                  Option.some.injEq] at added
                subst added
                simp only [if_neg flush]
                exact ⟨{ s with queue := rest }, rfl, rfl, rfl, rfl⟩
      | draining =>
          cases queued : s.queue with
          | nil => simp [Pipeline.addedBy, phase, queued] at added
          | cons first rest =>
              simp only [Pipeline.addedBy, phase, queued, List.head?_cons,
                Option.some.injEq] at added
              subst added
              exact ⟨{ s with queue := rest }, rfl, rfl, rfl, rfl⟩
  | tailer choice =>
      rw [Pipeline.act, Pipeline.stepTailer]
      cases phase : s.tailer.phase with
      | waiting | publishing => simp [Pipeline.addedBy, phase] at added
      | handing batch =>
          cases batch with
          | nil => simp [Pipeline.addedBy, phase] at added
          | cons first rest =>
              simp only [Pipeline.addedBy, phase,
                Option.ite_none_right_eq_some, Option.some.injEq] at added
              obtain ⟨⟨full, direct⟩, rfl⟩ := added
              simp only [Pipeline.handOver, if_neg full, if_pos direct]
              exact ⟨_, rfl, rfl, rfl, rfl⟩
  | _ => cases added

/-- Where the next state is within the bound there was room. -/
theorem room_of_capped
    (capped : (Pipeline.step options action s).MemoryCapped options) :
    Room options s action := by
  intro entry added somebody opens _
  obtain ⟨base, acted, aggregator, retry, trace⟩ := act_of_addedBy added
  have bound : (base.addEntry entry).heldEntries entry.record.username
      entry.record.day ≤ options.maxDestinationsPerUser +
        ((base.addEntry entry).pairs entry.record.username
          entry.record.day).card := by
    rw [← acted]
    exact capped entry.record.username entry.record.day
  have attributable : ¬entry.record.unattributable = true := by
    simp [somebody]
  rw [heldEntries_addEntry, if_neg attributable, openedEntries, aggregator,
    if_pos ⟨rfl, rfl, opens⟩, pairs_addEntry somebody, Pipeline.pairs,
    trace] at bound
  rw [Pipeline.heldEntries, Pipeline.retryEntries, aggregator, retry]
    at bound
  exact bound

/-- What is held for a user's day is within the cap and one overflow entry
for every pair seen, in every state of a run, if and only if every record
that opens an entry finds room for it where the retry batch holds entries
of its user and day. -/
theorem memory_capped_iff (options : Options)
    (actions : List PipelineAction) :
    (∀ count, (Runs.run (Pipeline.step options) (actions.take count)
        (Pipeline.initial options)).MemoryCapped options) ↔
      Runs.Meets (Pipeline.step options) (Room options) actions
        (Pipeline.initial options) := by
  constructor
  · exact Runs.meets_of_states fun _ _ capped => room_of_capped capped
  · intro meets count
    have both : Counted (Runs.run (Pipeline.step options)
        (actions.take count) (Pipeline.initial options)) ∧
        Remembers options (Runs.run (Pipeline.step options)
          (actions.take count) (Pipeline.initial options)) := by
      apply @run_invariant _ _
        (fun s => Counted s ∧ Remembers options s) (Room options)
      · rintro s action after move room ⟨counted, remembers⟩
        exact ⟨counted.move move, remembers.move counted room move⟩
      · rintro s ⟨counted, remembers⟩
        exact ⟨counted.of_same ⟨rfl, rfl, rfl, rfl, rfl, rfl, rfl, rfl⟩,
          remembers.of_same ⟨rfl, rfl, rfl, rfl, fun _ member => member⟩⟩
      · exact ⟨counted_initial options, remembers_initial options⟩
      · exact meets.take count
    exact both.2.capped

end Runs

/-- The smallest cap that the configuration allows. -/
def outageOptions : Options :=
  { sampleOptions with maxDestinationsPerUser := 10 }

/-- One connection, and a flush whose lookup fails. -/
def outageRound : List PipelineAction :=
  ([.append (bytesOf (connectionLine "alice" "a.example"))] :
      List PipelineAction) ++
    tailerPass 1 ++
    ([.loop { flush := true }, .loop {}, .loop {}, .loop {},
      .loop { lookupFails := true }] : List PipelineAction)

/-- Twelve rounds, always to the same destination. -/
def outageActions : List PipelineAction :=
  (List.replicate 12 outageRound).flatten

def outageState : Pipeline :=
  Runs.run (@Pipeline.step Build.dev outageOptions) outageActions
    (Pipeline.initial outageOptions)

theorem outage_exceeds :
    ¬outageState.heldEntries "alice" "2025-10-13" ≤
      outageOptions.maxDestinationsPerUser +
        (outageState.pairs "alice" "2025-10-13").card := by
  decide +kernel

theorem failed_flushes_exceed_cap :
    ¬∀ count, (Runs.run (@Pipeline.step Build.dev outageOptions)
        (outageActions.take count)
        (Pipeline.initial outageOptions)).MemoryCapped outageOptions := by
  intro capped
  have whole : outageState.MemoryCapped outageOptions := by
    have all := capped outageActions.length
    rw [List.take_length] at all
    exact all
  exact outage_exceeds (whole "alice" "2025-10-13")

end Xoxproxy.Analytics
