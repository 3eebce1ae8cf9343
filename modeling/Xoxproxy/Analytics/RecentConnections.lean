import Xoxproxy.Analytics.LiveView
import Xoxproxy.Library.CircularBuffers

/-!
# Recent connections

`RecentConnections` of `internal/analytics/aggregator.go` lists the latest
records that the circular buffer still holds.
-/

namespace Xoxproxy.Analytics

open CircularBuffers

/-- The username in a slot; a slot that was never written holds the zero
record. -/
def slotUsername (slot : Option Record) : String :=
  (slot.map Record.username).getD ""

/-- Whether the filter passes over a slot. -/
def skips (username : String) (slot : Option Record) : Bool :=
  username != "" && slotUsername slot != username

/-- The loop of `recent` with so many slots left to visit; it is `none`
where Go's index is out of range. -/
def Ring.walk (ring : Ring) (n : Int) (username : String) :
    Nat → List (Option Record) → Option (List (Option Record))
  | 0, out => some out
  | left + 1, out =>
      if (out.length : Int) < n then
        let i : Int := ring.size - (left + 1)
        let index := (ring.next - 1 - i + ring.buf.length).tmod
          ring.buf.length
        if index < 0 then none
        else
          match ring.buf[index.toNat]? with
          | none => none
          | some slot =>
              if skips username slot then ring.walk n username left out
              else ring.walk n username left (out ++ [slot])
      else some out

/-- `recent`. -/
def Ring.recent (ring : Ring) (limit : Int) (username : String) :
    Option (List (Option Record)) :=
  let n : Int := if limit < ring.size then limit else ring.size
  ring.walk n username ring.size []

/-- `RecentConnections`. -/
def Aggregator.recentConnections
    (aggregator : Aggregator) (limit : Int) (username : String) :
    Option (List (Option Record)) :=
  match aggregator.ring with
  | none => some []
  | some ring => if limit ≤ 0 then some [] else ring.recent limit username

/-- The buffer after the given records, the latest first. -/
structure Ring.Shows (ring : Ring) (records : List Record) : Prop where
  retains : Retains records ring.buf
  next : ring.next = records.length % ring.buf.length
  size : ring.size = min records.length ring.buf.length

theorem Ring.shows_new (capacity : Nat) : (Ring.new capacity).Shows [] where
  retains := retains_nil _
  next := by simp [Ring.new]
  size := by simp [Ring.new]

theorem Ring.Shows.add {ring : Ring} {records : List Record}
    (shows : ring.Shows records) (record : Record) :
    (ring.add record).Shows (record :: records) where
  retains := by
    simp only [Ring.add]
    rw [shows.next]
    exact shows.retains.write record
  next := by
    simp only [Ring.add, List.length_set, List.length_cons]
    rw [shows.next, Nat.mod_add_mod]
  size := by
    simp only [Ring.add, List.length_set, List.length_cons]
    rw [shows.size]
    split <;> omega

@[simp]
theorem Ring.length_add (ring : Ring) (record : Record) :
    (ring.add record).buf.length = ring.buf.length := by
  simp only [Ring.add, List.length_set]

/-- The buffer of an aggregator after any history. -/
theorem liveAfter_ring (maxDests : Nat) {capacity : Nat}
    (positive : 1 ≤ capacity) (history : List LiveEvent) :
    ∃ ring, (liveAfter maxDests capacity history).ring = some ring ∧
      ring.buf.length = capacity ∧ ring.Shows (addedRecords history) := by
  induction history with
  | nil =>
      refine ⟨.new capacity, ?_, ?_, Ring.shows_new capacity⟩
      · rw [liveAfter, newAggregator, if_pos (by omega)]
      · rw [Ring.new, List.length_replicate]
  | cons event past inductionHypothesis =>
      obtain ⟨ring, found, length, shows⟩ := inductionHypothesis
      cases event with
      | flush order => exact ⟨ring, found, length, shows⟩
      | add record =>
          refine ⟨ring.add record, ?_, ?_, shows.add record⟩
          · rw [liveAfter, Aggregator.add]
            split <;> simp [Aggregator.addUser, Aggregator.addToday, found]
          · rw [Ring.length_add, length]

/-- The slots of the records that the buffer still holds. -/
def Ring.heldSlots (ring : Ring) (records : List Record) :
    List (Option Record) :=
  (records.take ring.buf.length).map some

/-- One visit of the walk reads the next older record. -/
theorem Ring.Shows.visit {ring : Ring} {records : List Record}
    (shows : ring.Shows records) {left : Nat} (within : left < ring.size) :
    ∃ slot, (ring.heldSlots records)[ring.size - (left + 1)]? = some slot ∧
      0 ≤ ((ring.next : Int) - 1 - (ring.size - (left + 1)) +
        ring.buf.length).tmod ring.buf.length ∧
      ring.buf[(((ring.next : Int) - 1 - (ring.size - (left + 1)) +
        ring.buf.length).tmod ring.buf.length).toNat]? = some slot := by
  have size := shows.size
  have place : (ring.size : Int) - (left + 1) =
      (ring.size - (left + 1) : Nat) := by
    omega
  have young : ring.size - (left + 1) < ring.buf.length := by omega
  have present : ring.size - (left + 1) < records.length := by omega
  refine ⟨some records[ring.size - (left + 1)], ?_, ?_, ?_⟩
  · rw [heldSlots, List.getElem?_map, List.getElem?_take_of_lt young,
      List.getElem?_eq_getElem present, Option.map_some]
  · rw [place, shows.next, slotOf_back _ _ young]
    omega
  · rw [place, shows.next, slotOf_back _ _ young, Int.toNat_natCast]
    exact shows.retains _ young _ (List.getElem?_eq_getElem present)

/-- What is left of the walk when so many slots are left to visit. -/
theorem Ring.Shows.walk {ring : Ring} {records : List Record}
    (shows : ring.Shows records) (n : Int) (username : String)
    (left : Nat) (out : List (Option Record)) (within : left ≤ ring.size) :
    ring.walk n username left out =
      some (out ++ (((ring.heldSlots records).drop (ring.size - left)).filter
        fun slot => !skips username slot).take (n - out.length).toNat) := by
  have held : (ring.heldSlots records).length = ring.size := by
    rw [heldSlots, List.length_map, List.length_take, shows.size, Nat.min_comm]
  induction left generalizing out with
  | zero =>
      rw [Ring.walk, List.drop_of_length_le (by omega)]
      simp
  | succ left inductionHypothesis =>
      have unseen : left < ring.size := by omega
      obtain ⟨slot, found, inRange, read⟩ := shows.visit unseen
      have next : ring.size - (left + 1) + 1 = ring.size - left := by omega
      have older : (ring.heldSlots records).drop (ring.size - (left + 1)) =
          slot :: (ring.heldSlots records).drop (ring.size - left) := by
        have bound := (List.getElem?_eq_some_iff.mp found).1
        rw [List.drop_eq_getElem_cons bound, next,
          (List.getElem?_eq_some_iff.mp found).2]
      rw [Ring.walk, older]
      by_cases room : (out.length : Int) < n
      · rw [if_pos room]
        dsimp only
        rw [if_neg (by omega), read]
        dsimp only
        by_cases skipped : skips username slot = true
        · rw [if_pos skipped, inductionHypothesis out (by omega),
            List.filter_cons_of_neg (by simpa using skipped)]
        · have kept : (!skips username slot) = true := by simpa using skipped
          have one : (n - out.length).toNat =
              (n - (out ++ [slot]).length).toNat + 1 := by
            rw [List.length_append, List.length_singleton]
            omega
          rw [if_neg skipped, inductionHypothesis _ (by omega),
            List.filter_cons_of_pos (p := fun slot => !skips username slot)
              kept, one, List.take_succ_cons, List.append_assoc,
            List.singleton_append]
      · have none : (n - out.length).toNat = 0 := by omega
        rw [if_neg room, none, List.take_zero, List.append_nil]

/-- Whether a record is one that a filter asks for. -/
def Record.isOf (username : String) (record : Record) : Bool :=
  username == "" || record.username == username

/-- The records that a capacity leaves, those of a user, and of these no
more than the limit; all with the latest first. -/
def latestRecords (capacity : Nat) (limit : Int) (username : String)
    (records : List Record) : List Record :=
  ((records.take capacity).filter (Record.isOf username)).take limit.toNat

theorem skips_some (username : String) (record : Record) :
    (!skips username (some record)) = record.isOf username := by
  by_cases all : username = ""
  · simp [skips, Record.isOf, all]
  · simp [skips, Record.isOf, slotUsername, bne]

theorem recentConnections_latest
    (maxDests capacity : Nat) (positive : 1 ≤ capacity)
    (history : List LiveEvent) (limit : Int) (wanted : 1 ≤ limit)
    (username : String) :
    (liveAfter maxDests capacity history).recentConnections limit username =
      some ((latestRecords capacity limit username
        (addedRecords history)).map some) := by
  obtain ⟨ring, found, length, shows⟩ := liveAfter_ring maxDests positive history
  have size := shows.size
  have asked : ((fun slot => !skips username slot) ∘ some) =
      Record.isOf username := by
    funext record
    exact skips_some username record
  have few : (((addedRecords history).take capacity).filter
      (Record.isOf username)).length ≤ ring.size := by
    have filtered := List.length_filter_le (Record.isOf username)
      ((addedRecords history).take capacity)
    rw [List.length_take] at filtered
    omega
  rw [Aggregator.recentConnections, found]
  dsimp only
  rw [if_neg (by omega), Ring.recent, shows.walk _ username ring.size [] (le_refl _), Nat.sub_self,
    List.drop_zero, List.nil_append, Ring.heldSlots, length, List.filter_map,
    asked, latestRecords, List.map_take, Option.some_inj,
    List.take_eq_take_iff, List.length_map, List.length_nil]
  split <;> omega

/-- One visited host. -/
def visit (unixMillis : Int) (username host : String) : Record where
  unixMillis := unixMillis
  username := username
  protocol := statHTTP
  host := host
  port := 80
  clientIP := "192.0.2.7"
  blocked := false
  bytesIn := 0
  bytesOut := 0

/-- Two slots, three records: the oldest is gone, and the filter comes
before the limit. -/
theorem recentConnections_alice :
    (liveAfter 10 2 [.add (visit 3000 "bob" "c.com"),
      .add (visit 2000 "alice" "b.com"),
      .add (visit 1000 "alice" "a.com")]).recentConnections 1 "alice" =
      some [some (visit 2000 "alice" "b.com")] := by
  rw [recentConnections_latest 10 2 (by decide) _ 1 (by decide) "alice"]
  decide

end Xoxproxy.Analytics
