import Xoxproxy.Analytics.Aggregator
import Xoxproxy.Library.Tallies

/-!
# The live view

`Snapshot` of `internal/analytics/aggregator.go` and what it shows after
any sequence of records and flushes.
-/

namespace Xoxproxy.Analytics

open AssociationMaps

/-- `LiveSnapshot`; the service fills in the drops and the tailer's
view. -/
structure LiveSnapshot where
  day : String
  bytesIn : Int
  bytesOut : Int
  requests : Int
  blocked : Int
  ingested : Nat
  overflowed : Nat
  dropped : Nat := 0
  logOffset : Int := 0
  malformedLines : Nat := 0
  ringEnabled : Bool
  deriving DecidableEq, Repr

/-- `Snapshot`. -/
def Aggregator.snapshot (aggregator : Aggregator) : LiveSnapshot :=
  let totals := (find? aggregator.todayDay aggregator.today).getD {}
  { day := aggregator.todayDay
    bytesIn := totals.bytesIn
    bytesOut := totals.bytesOut
    requests := totals.requests
    blocked := totals.blocked
    ingested := aggregator.ingested
    overflowed := aggregator.overflowed
    ringEnabled := aggregator.ring.isSome }

/-- The four totals of a snapshot. -/
def LiveSnapshot.totals (snapshot : LiveSnapshot) : Counters where
  requests := snapshot.requests
  blocked := snapshot.blocked
  bytesIn := snapshot.bytesIn
  bytesOut := snapshot.bytesOut

/-- What happens to an aggregator. -/
inductive LiveEvent where
  | add (record : Record)
  | flush (order : TakeOrder)

/-- The aggregator after a history, whose latest event comes first. -/
def liveAfter (maxDests ringSize : Nat) : List LiveEvent → Aggregator
  | [] => newAggregator maxDests ringSize
  | .add record :: past => (liveAfter maxDests ringSize past).add record
  | .flush order :: past =>
      ((liveAfter maxDests ringSize past).takePending order).2

/-- The records of a history, the latest first. -/
def addedRecords : List LiveEvent → List Record
  | [] => []
  | .add record :: past => record :: addedRecords past
  | .flush _ :: past => addedRecords past

/-- The number of a record's UTC day. -/
def Record.dayNumber (record : Record) : Int :=
  Xoxproxy.dayNumber (unixMilli record.unixMillis)

theorem Record.day_eq_iff (record other : Record) :
    record.day = other.day ↔ record.dayNumber = other.dayNumber :=
  formatDay_eq_iff _ _

/-- A record of the newest day. -/
structure OfNewestDay (records : List Record) (record : Record) :
    Prop where
  listed : record ∈ records
  newest : ∀ other ∈ records, other.dayNumber ≤ record.dayNumber

/-- The totals over all records of a record's day. -/
def dayTotals (records : List Record) (record : Record) : Counters :=
  ((records.filter fun other =>
    decide (other.dayNumber = record.dayNumber)).map Counters.ofRecord).sum

/-- A snapshot shows the newest day and its totals. -/
def ShowsNewestDay (records : List Record) (snapshot : LiveSnapshot) :
    Prop :=
  ∀ record, OfNewestDay records record →
    snapshot.day = record.day ∧
      snapshot.totals = dayTotals records record

/-- Behind a record of the newest day came records of that day only. -/
def NewestDayLasts (records : List Record) : Prop :=
  ∀ later record earlier, records = later ++ record :: earlier →
    OfNewestDay records record →
      ∀ other ∈ later, other.dayNumber = record.dayNumber

/-- The latest record and those of its day without another day's in
between. -/
def latestRun : List Record → List Record
  | [] => []
  | latest :: past =>
      latest :: past.takeWhile fun record =>
        decide (record.dayNumber = latest.dayNumber)

def runTotals (records : List Record) : Counters :=
  ((latestRun records).map Counters.ofRecord).sum

/-- The totals that an aggregator keeps after the given records. -/
structure Keeps (aggregator : Aggregator) (records : List Record) :
    Prop where
  day : aggregator.todayDay = (records.head?.map Record.day).getD ""
  today : aggregator.today =
    (records.head?.map fun latest =>
      (latest.day, runTotals records)).toList

theorem latestRun_same {record latest : Record} (past : List Record)
    (same : latest.dayNumber = record.dayNumber) :
    latestRun (record :: latest :: past) =
      record :: latestRun (latest :: past) := by
  rw [latestRun, latestRun, List.takeWhile_cons_of_pos (by simpa using same),
    same]

theorem latestRun_other {record latest : Record} (past : List Record)
    (other : latest.dayNumber ≠ record.dayNumber) :
    latestRun (record :: latest :: past) = [record] := by
  rw [latestRun, List.takeWhile_cons_of_neg (by simpa using other)]

theorem runTotals_same {record latest : Record} (past : List Record)
    (same : latest.dayNumber = record.dayNumber) :
    runTotals (record :: latest :: past) =
      (runTotals (latest :: past)).add record := by
  rw [runTotals, latestRun_same past same, List.map_cons, List.sum_cons,
    Counters.add, runTotals, add_comm]

theorem runTotals_first (record : Record) :
    runTotals [record] = ({} : Counters).add record := by
  have first : runTotals [record] = Counters.ofRecord record + 0 := rfl
  rw [first, add_comm]
  rfl

theorem runTotals_other {record latest : Record} (past : List Record)
    (other : latest.dayNumber ≠ record.dayNumber) :
    runTotals (record :: latest :: past) = ({} : Counters).add record := by
  rw [← runTotals_first, runTotals, latestRun_other past other]
  rfl

/-- Records of another day replace the totals, those of the same day add
to them. -/
theorem Keeps.addToday {aggregator : Aggregator} {records : List Record}
    (keeps : Keeps aggregator records) (record : Record) :
    Keeps (aggregator.addToday record) (record :: records) where
  day := rfl
  today := by
    unfold Aggregator.addToday
    simp only [keeps.day, keeps.today]
    cases records with
    | nil =>
        have started : adjust record.day (count record) [] =
            [(record.day, runTotals [record])] := by
          rw [runTotals_first]
          rfl
        by_cases unnamed : record.day = ""
        · simpa [unnamed] using started
        · simpa [unnamed] using started
    | cons latest past =>
        by_cases same : latest.dayNumber = record.dayNumber
        · have sameDay : record.day = latest.day :=
            (Record.day_eq_iff _ _).mpr same.symm
          simp [sameDay, adjust, count, runTotals_same past same]
        · have otherDay : record.day ≠ latest.day :=
            fun equal => same ((Record.day_eq_iff _ _).mp equal).symm
          simp [otherDay, adjust, count, runTotals_other past same]

theorem Keeps.add {aggregator : Aggregator} {records : List Record}
    (keeps : Keeps aggregator records) (record : Record) :
    Keeps (aggregator.add record) (record :: records) := by
  have after := keeps.addToday record
  unfold Aggregator.add
  by_cases nobody : record.unattributable = true
  · rw [if_pos nobody]
    exact ⟨after.day, after.today⟩
  · rw [if_neg nobody]
    exact ⟨after.day, after.today⟩

theorem liveAfter_keeps (maxDests ringSize : Nat) (past : List LiveEvent) :
    Keeps (liveAfter maxDests ringSize past) (addedRecords past) := by
  induction past with
  | nil => exact ⟨rfl, rfl⟩
  | cons event past inductionHypothesis =>
      cases event with
      | add record => exact inductionHypothesis.add record
      | flush order =>
          exact ⟨inductionHypothesis.day, inductionHypothesis.today⟩

theorem Keeps.snapshot {aggregator : Aggregator} {latest : Record}
    {past : List Record} (keeps : Keeps aggregator (latest :: past)) :
    aggregator.snapshot.day = latest.day ∧
      aggregator.snapshot.totals = runTotals (latest :: past) := by
  have day : aggregator.todayDay = latest.day := keeps.day
  have today : aggregator.today =
      [(latest.day, runTotals (latest :: past))] := keeps.today
  have found : find? aggregator.todayDay aggregator.today =
      some (runTotals (latest :: past)) := by
    rw [day, today, find?, if_pos rfl]
  refine ⟨day, ?_⟩
  unfold Aggregator.snapshot LiveSnapshot.totals
  rw [found]
  rfl

@[simp]
theorem ofRecord_requests (record : Record) :
    (Counters.ofRecord record).requests = 1 := rfl

theorem sum_requests (records : List Record) :
    (records.map Counters.ofRecord).sum.requests = records.length := by
  induction records with
  | nil => rfl
  | cons record records inductionHypothesis =>
      rw [List.map_cons, List.sum_cons, Counters.add_requests,
        inductionHypothesis, ofRecord_requests, List.length_cons]
      omega

section Latest

variable {latest record : Record} {past : List Record}

theorem latestRun_takeWhile (same : latest.dayNumber = record.dayNumber) :
    latestRun (latest :: past) =
      (latest :: past).takeWhile fun other =>
        decide (other.dayNumber = record.dayNumber) := by
  rw [latestRun, List.takeWhile_cons_of_pos (by simpa using same), same]

/-- The requests alone tell whether the totals miss a record. -/
theorem runTotals_eq_iff (same : latest.dayNumber = record.dayNumber) :
    runTotals (latest :: past) = dayTotals (latest :: past) record ↔
      ((latest :: past).filter fun other =>
        decide (other.dayNumber = record.dayNumber)) =
      (latest :: past).takeWhile fun other =>
        decide (other.dayNumber = record.dayNumber) := by
  rw [runTotals, dayTotals, latestRun_takeWhile same]
  constructor
  · intro totals
    have requests := congrArg Counters.requests totals
    rw [sum_requests, sum_requests] at requests
    exact Tallies.filter_eq_takeWhile_of_length _ _ (by exact_mod_cast requests)
  · intro all
    rw [all]

/-- Records of one day are of the newest day together. -/
theorem OfNewestDay.same {records : List Record} {other : Record}
    (ofNewest : OfNewestDay records record) (listed : other ∈ records)
    (same : other.dayNumber = record.dayNumber) :
    OfNewestDay records other :=
  ⟨listed, fun one oneListed => same ▸ ofNewest.newest one oneListed⟩

theorem NewestDayLasts.latest_day
    (lasts : NewestDayLasts (latest :: past))
    (ofNewest : OfNewestDay (latest :: past) record) :
    latest.dayNumber = record.dayNumber := by
  obtain ⟨later, earlier, split⟩ := List.append_of_mem ofNewest.listed
  cases later with
  | nil =>
      obtain ⟨rfl, _⟩ := List.cons.inj split
      rfl
  | cons head later =>
      obtain ⟨rfl, _⟩ := List.cons.inj split
      exact lasts _ record earlier split ofNewest latest List.mem_cons_self

/-- Seen from a record of the newest day, the run of the latest record
is the whole day. -/
theorem NewestDayLasts.all
    (lasts : NewestDayLasts (latest :: past))
    (ofNewest : OfNewestDay (latest :: past) record) :
    ((latest :: past).filter fun other =>
        decide (other.dayNumber = record.dayNumber)) =
      (latest :: past).takeWhile fun other =>
        decide (other.dayNumber = record.dayNumber) := by
  rw [Tallies.filter_eq_takeWhile_iff]
  intro before item after split isKind other listed
  have sameDay : item.dayNumber = record.dayNumber := by simpa using isKind
  have itemListed : item ∈ latest :: past := by simp [split]
  have lastsHere := lasts before item after split
    (ofNewest.same itemListed sameDay) other listed
  simpa using lastsHere.trans sameDay

end Latest

/-- The live view shows the newest day and its totals, after any records
and flushes, if and only if no record of another day came behind one of
the newest day. -/
theorem snapshot_newest_iff (maxDests ringSize : Nat)
    (past : List LiveEvent) :
    ShowsNewestDay (addedRecords past)
        (liveAfter maxDests ringSize past).snapshot ↔
      NewestDayLasts (addedRecords past) := by
  have keeps := liveAfter_keeps maxDests ringSize past
  generalize addedRecords past = records at keeps ⊢
  cases records with
  | nil =>
      constructor
      · intro _ later record earlier split
        simp at split
      · intro _ record ofNewest
        cases ofNewest.listed
  | cons latest past =>
      obtain ⟨day, totals⟩ := keeps.snapshot
      constructor
      · intro shows later record earlier split ofNewest other listed
        obtain ⟨shownDay, shownTotals⟩ := shows record ofNewest
        have same : latest.dayNumber = record.dayNumber :=
          (Record.day_eq_iff _ _).mp (day.symm.trans shownDay)
        have all := (runTotals_eq_iff same).mp (totals.symm.trans shownTotals)
        have leading := (Tallies.filter_eq_takeWhile_iff _ _).mp all
          later record earlier split (by simp) other listed
        simpa using leading
      · intro lasts record ofNewest
        have same := lasts.latest_day ofNewest
        have all := lasts.all ofNewest
        exact ⟨day.trans ((Record.day_eq_iff _ _).mpr same),
          totals.trans ((runTotals_eq_iff same).mpr all)⟩

def finishedAt (millis : Int) : Record where
  unixMillis := millis
  username := "alice"
  protocol := statHTTPS
  host := "a.com"
  port := 443
  clientIP := "203.0.113.7"
  blocked := false
  bytesIn := 100
  bytesOut := 0

/-- A request that ended in the last millisecond of a day, logged behind
one that ended at midnight. -/
def straggling : List LiveEvent :=
  [.add (finishedAt 86399999), .add (finishedAt 86400000)]

theorem midnight_ofNewestDay :
    OfNewestDay (addedRecords straggling) (finishedAt 86400000) where
  listed := by simp [straggling, addedRecords]
  newest := by decide

/-- The straggler takes the live view back to its own day. -/
theorem straggler_moves_back :
    ¬ ShowsNewestDay (addedRecords straggling)
        (liveAfter 10 0 straggling).snapshot := by
  intro shows
  have day : (finishedAt 86399999).day = (finishedAt 86400000).day :=
    (shows _ midnight_ofNewestDay).1
  exact absurd ((Record.day_eq_iff _ _).mp day) (by decide)

end Xoxproxy.Analytics
