import Xoxproxy.Auth.Operations

/-!
# The login throttle is a sliding window

What `ipLimiter` answers depends on the history of calls alone, however
`prune` visits the tracked addresses and whether it runs at all.
-/

namespace Xoxproxy

open AssociationMaps IPLimiter

/-- A call of the limiter.  A failure comes with the order in which
`prune` ranges over the map. -/
inductive LimiterCall where
  | blocked (ip : String) (now : Time)
  | recordFailure (ip : String) (now : Time) (order : List String)
  | recordSuccess (ip : String)
  deriving DecidableEq, Repr

section Histories

variable (options : AuthOptions)

/-- One iteration of the loop of `prune`. -/
def pruneVisit (now : Time) (entries : List (String × IPEntry))
    (ip : String) : List (String × IPEntry) :=
  match find? ip entries with
  | none => entries
  | some entry =>
      if lapsed options now entry then
        entries.filter fun entry => decide (entry.1 ≠ ip)
      else entries

/-- `prune`, with the order of its loop. -/
def pruneInOrder (limiter : IPLimiter) (now : Time)
    (order : List String) : IPLimiter :=
  if limiter.entries.length < maxTrackedIPs then limiter
  else ⟨order.foldl (pruneVisit options now) limiter.entries⟩

/-- The limiter after a history, whose latest call comes first. -/
def limiterAfter : List LimiterCall → IPLimiter
  | [] => {}
  | .blocked _ _ :: past => limiterAfter past
  | .recordFailure ip now order :: past =>
      if ip = "" then limiterAfter past
      else
        ⟨adjust ip (addFailure options now)
          (pruneInOrder options (limiterAfter past) now order).entries⟩
  | .recordSuccess ip :: past => (limiterAfter past).recordSuccess ip

/-- The limiter that never prunes. -/
def unprunedAfter : List LimiterCall → IPLimiter
  | [] => {}
  | .blocked _ _ :: past => unprunedAfter past
  | .recordFailure ip now _ :: past =>
      if ip = "" then unprunedAfter past
      else ⟨adjust ip (addFailure options now) (unprunedAfter past).entries⟩
  | .recordSuccess ip :: past => (unprunedAfter past).recordSuccess ip

/-- Every loop ranged over the tracked addresses once. -/
def Ranged : List LimiterCall → Prop
  | [] => True
  | .recordFailure _ _ order :: past =>
      order.Perm (keys (limiterAfter options past).entries) ∧ Ranged past
  | _ :: past => Ranged past

/-- The times of a history do not decrease; none is before `start` or
after `now`. -/
def Timely (start : Time) : List LimiterCall → Time → Prop
  | [], now => start ≤ now
  | .blocked _ time :: past, now => time ≤ now ∧ Timely start past time
  | .recordFailure _ time _ :: past, now =>
      time ≤ now ∧ Timely start past time
  | .recordSuccess _ :: past, now => Timely start past now

/-- The failures within the window before an instant, by `Time.Sub`. -/
def recent (now : Time) (failures : List Time) : List Time :=
  failures.filter fun failure =>
    decide (timeSub now failure ≤ options.ipWindow)

/-- Within a window that is shorter than the longest duration, distances
are exact. -/
theorem recent_exact {options : AuthOptions}
    (least : minDuration ≤ options.ipWindow)
    (short : options.ipWindow < maxDuration) (now : Time)
    (failures : List Time) :
    recent options now failures =
      failures.filter fun failure =>
        decide (now - failure ≤ options.ipWindow) := by
  apply List.filter_congr
  intro failure _
  rw [decide_eq_decide]
  exact saturate_le_iff least short

/-- The failures of an address after its latest success or block. -/
def openFailures (ip : String) : List LimiterCall → List Time
  | [] => []
  | .blocked _ _ :: past => openFailures ip past
  | .recordFailure other now _ :: past =>
      if other = ip then
        if options.ipMaxFailures ≤
            (recent options now (openFailures ip past)).length + 1 then []
        else openFailures ip past ++ [now]
      else openFailures ip past
  | .recordSuccess other :: past =>
      if other = ip then [] else openFailures ip past

/-- A failure is the `IPMaxFailures`-th that lies within the window and
after the latest success or block. -/
def Reaches (ip : String) (past : List LimiterCall) (now : Time) : Prop :=
  options.ipMaxFailures ≤
    (recent options now (openFailures options ip past)).length + 1

/-- An earlier failure blocks the address: it was the `IPMaxFailures`-th,
its lockout lasts and no success came later. -/
def Throttled (ip : String) (past : List LimiterCall) (now : Time) : Prop :=
  ∃ later failure order earlier,
    past = later ++ .recordFailure ip failure order :: earlier ∧
      .recordSuccess ip ∉ later ∧ Reaches options ip earlier failure ∧
        now < failure + options.ipLockout

end Histories

section Pruning

variable {options : AuthOptions} {now : Time}
variable {entries : List (String × IPEntry)}

theorem pruneVisit_eq (unique : (keys entries).Nodup) (ip : String) :
    pruneVisit options now entries ip =
      entries.filter fun entry =>
        !(decide (entry.1 = ip) && lapsed options now entry.2) := by
  have own : ∀ entry ∈ entries, entry.1 = ip →
      find? ip entries = some entry.2 := by
    rintro ⟨other, value⟩ member rfl
    exact find?_of_mem unique member
  unfold pruneVisit
  cases found : find? ip entries with
  | none =>
      symm
      apply List.filter_eq_self.mpr
      intro entry member
      have other : entry.1 ≠ ip := by
        intro same
        rw [own entry member same] at found
        cases found
      simp [other]
  | some value =>
      have same : ∀ entry ∈ entries, entry.1 = ip → entry.2 = value := by
        intro entry member listed
        rw [own entry member listed] at found
        exact Option.some.inj found
      by_cases gone : lapsed options now value = true
      · simp only [gone, if_true]
        apply List.filter_congr
        intro entry member
        by_cases listed : entry.1 = ip
        · simp [listed, same entry member listed, gone]
        · simp [listed]
      · simp only [gone, Bool.false_eq_true, if_false]
        symm
        apply List.filter_eq_self.mpr
        intro entry member
        by_cases listed : entry.1 = ip
        · simp [same entry member listed, gone]
        · simp [listed]

theorem foldl_pruneVisit (unique : (keys entries).Nodup)
    (order : List String) :
    order.foldl (pruneVisit options now) entries =
      entries.filter fun entry =>
        !(decide (entry.1 ∈ order) && lapsed options now entry.2) := by
  induction order generalizing entries with
  | nil => simp
  | cons ip order inductionHypothesis =>
      rw [List.foldl_cons, pruneVisit_eq unique,
        inductionHypothesis (keys_filter_nodup unique _),
        List.filter_filter]
      apply List.filter_congr
      intro entry _
      by_cases here : entry.1 = ip
      · cases lapsed options now entry.2 <;> simp [here]
      · simp [here]

/-- Ranging over the tracked addresses in any order drops the lapsed
entries. -/
theorem pruneInOrder_eq {limiter : IPLimiter} {order : List String}
    (unique : (keys limiter.entries).Nodup)
    (ranged : order.Perm (keys limiter.entries)) :
    pruneInOrder options limiter now order = limiter.prune options now := by
  unfold pruneInOrder IPLimiter.prune
  rw [foldl_pruneVisit unique]
  have visited : ∀ entry ∈ limiter.entries, entry.1 ∈ order := by
    intro entry member
    exact ranged.mem_iff.mpr (List.mem_map.mpr ⟨entry, member, rfl⟩)
  have dropped : limiter.entries.filter (fun entry =>
        !(decide (entry.1 ∈ order) && lapsed options now entry.2)) =
      limiter.entries.filter fun entry =>
        !lapsed options now entry.2 := by
    apply List.filter_congr
    intro entry member
    simp [visited entry member]
  rw [dropped]

theorem prune_nodup {limiter : IPLimiter}
    (unique : (keys limiter.entries).Nodup) :
    (keys (limiter.prune options now).entries).Nodup := by
  unfold IPLimiter.prune
  split
  · exact unique
  · exact keys_filter_nodup unique _

/-- An address is tracked after pruning, or its entry had lapsed. -/
theorem find?_prune {limiter : IPLimiter}
    (unique : (keys limiter.entries).Nodup) (ip : String) :
    find? ip (limiter.prune options now).entries =
        find? ip limiter.entries ∨
      find? ip (limiter.prune options now).entries = none ∧
        ∃ entry, find? ip limiter.entries = some entry ∧
          lapsed options now entry = true := by
  unfold IPLimiter.prune
  split
  · exact .inl rfl
  · have value := @find?_filter_value String IPEntry _ ip limiter.entries
      unique fun entry => !lapsed options now entry
    cases found : find? ip limiter.entries with
    | none =>
        rw [found] at value
        exact .inl value
    | some entry =>
        rw [found] at value
        by_cases gone : lapsed options now entry = true
        · refine .inr ⟨?_, entry, rfl, gone⟩
          simpa [Option.filter, gone] using value
        · exact .inl (by simpa [Option.filter, gone] using value)

theorem limiterAfter_nodup {past : List LimiterCall}
    (ranged : Ranged options past) :
    (keys (limiterAfter options past).entries).Nodup := by
  induction past with
  | nil => exact List.nodup_nil
  | cons call past inductionHypothesis =>
      cases call with
      | blocked ip now => exact inductionHypothesis ranged
      | recordFailure ip now order =>
          have before := inductionHypothesis ranged.2
          rw [limiterAfter]
          split
          · exact before
          · rw [pruneInOrder_eq before ranged.1]
            exact keys_adjust_nodup (prune_nodup before)
      | recordSuccess ip =>
          exact keys_filter_nodup (inductionHypothesis ranged) _

end Pruning

/-! ## An entry and the history of its address -/

section Throttling

variable {options : AuthOptions} {ip : String} {now : Time}
variable {past : List LimiterCall}

theorem Timely.times_le {start : Time} (timely : Timely start past now) :
    start ≤ now ∧
      ∀ other failure order, .recordFailure other failure order ∈ past →
        failure ≤ now := by
  induction past generalizing now with
  | nil => exact ⟨timely, by simp⟩
  | cons call past inductionHypothesis =>
      cases call with
      | blocked other time =>
          obtain ⟨first, earlier⟩ := inductionHypothesis timely.2
          refine ⟨le_trans first timely.1, ?_⟩
          intro address failure order member
          have listed : .recordFailure address failure order ∈ past := by
            simpa using member
          exact le_trans (earlier address failure order listed) timely.1
      | recordFailure other time visited =>
          obtain ⟨first, earlier⟩ := inductionHypothesis timely.2
          refine ⟨le_trans first timely.1, ?_⟩
          intro address failure order member
          rcases List.mem_cons.mp member with same | listed
          · cases same
            exact timely.1
          · exact le_trans (earlier address failure order listed) timely.1
      | recordSuccess other =>
          obtain ⟨first, earlier⟩ := inductionHypothesis timely
          refine ⟨first, ?_⟩
          intro address failure order member
          have listed : .recordFailure address failure order ∈ past := by
            simpa using member
          exact earlier address failure order listed

/-- The latest call blocks, or an earlier one does and the latest is no
success. -/
theorem throttled_cons_iff (call : LimiterCall) :
    Throttled options ip (call :: past) now ↔
      (∃ failure order, call = .recordFailure ip failure order ∧
        Reaches options ip past failure ∧
          now < failure + options.ipLockout) ∨
      call ≠ .recordSuccess ip ∧ Throttled options ip past now := by
  constructor
  · rintro ⟨later, failure, order, earlier, shape, lasting, reaches, locked⟩
    cases later with
    | nil =>
        obtain ⟨rfl, rfl⟩ := List.cons.inj shape
        exact .inl ⟨failure, order, rfl, reaches, locked⟩
    | cons first later =>
        obtain ⟨rfl, rfl⟩ := List.cons.inj shape
        obtain ⟨other, rest⟩ := not_or.mp (mt List.mem_cons.mpr lasting)
        exact .inr ⟨Ne.symm other, later, failure, order, earlier, rfl,
          rest, reaches, locked⟩
  · rintro (⟨failure, order, rfl, reaches, locked⟩ |
      ⟨noSuccess, later, failure, order, earlier, rfl, lasting, reaches,
        locked⟩)
    · exact ⟨[], failure, order, past, rfl, List.not_mem_nil, reaches,
        locked⟩
    · refine ⟨call :: later, failure, order, earlier, rfl, ?_, reaches,
        locked⟩
      rw [List.mem_cons, not_or]
      exact ⟨noSuccess.symm, lasting⟩

/-- From an instant on, an entry answers for the history of its
address. -/
structure Tracks (options : AuthOptions) (ip : String)
    (past : List LimiterCall) (now : Time) (entry : IPEntry) : Prop where
  failures : ∀ later, now ≤ later →
    recent options later entry.failures =
      recent options later (openFailures options ip past)
  deadline : ∀ later, now ≤ later →
    (later < entry.blockedUntil ↔ Throttled options ip past later)
  ordered : entry.failures.Pairwise (· ≤ ·)
  elapsed : ∀ failure ∈ entry.failures, failure ≤ now

theorem not_throttled_nil : ¬ Throttled options ip [] now := by
  rintro ⟨later, failure, order, earlier, shape, -⟩
  cases later <;> cases shape

theorem tracks_nil (started : zeroTime ≤ now) :
    Tracks options ip [] now {} where
  failures := fun _ _ => rfl
  deadline := by
    intro later reached
    have unlocked : ¬ later < zeroTime :=
      not_lt.mpr (le_trans started reached)
    exact iff_of_false unlocked not_throttled_nil
  ordered := List.Pairwise.nil
  elapsed := by simp

theorem Tracks.mono {entry : IPEntry} {later : Time}
    (tracks : Tracks options ip past now entry) (reached : now ≤ later) :
    Tracks options ip past later entry where
  failures := fun after behind =>
    tracks.failures after (le_trans reached behind)
  deadline := fun after behind =>
    tracks.deadline after (le_trans reached behind)
  ordered := tracks.ordered
  elapsed := fun failure member =>
    le_trans (tracks.elapsed failure member) reached

/-- The last failure of an entry is the newest. -/
theorem Tracks.le_newest {entry : IPEntry} {newest : Time}
    (tracks : Tracks options ip past now entry)
    (last : entry.failures.getLast? = some newest) :
    ∀ failure ∈ entry.failures, failure ≤ newest := by
  obtain ⟨earlier, shape⟩ := List.getLast?_eq_some_iff.mp last
  have ordered := tracks.ordered
  rw [shape] at ordered ⊢
  obtain ⟨-, -, below⟩ := List.pairwise_append.mp ordered
  intro failure member
  rcases List.mem_append.mp member with inEarlier | atEnd
  · exact below failure inEarlier newest List.mem_cons_self
  · exact le_of_eq (List.mem_singleton.mp atEnd)

/-- The failures of a lapsed entry are outside every later window. -/
theorem Tracks.recent_lapsed {entry : IPEntry} {later : Time}
    (tracks : Tracks options ip past now entry)
    (gone : lapsed options now entry = true) (reached : now ≤ later) :
    recent options later entry.failures = [] := by
  have old := (Bool.and_eq_true_iff.mp gone).2
  apply List.filter_eq_nil_iff.mpr
  intro failure member
  cases last : entry.failures.getLast? with
  | none =>
      rw [List.getLast?_eq_none_iff.mp last] at member
      cases member
  | some newest =>
      rw [last] at old
      have outside : options.ipWindow < timeSub now newest :=
        of_decide_eq_true old
      have below := tracks.le_newest last failure member
      have distant : options.ipWindow < timeSub later failure :=
        lt_of_lt_of_le outside (timeSub_le reached below)
      rw [decide_eq_true_eq]
      exact not_le.mpr distant

/-- A lapsed entry says what a new one says. -/
theorem Tracks.of_lapsed {entry : IPEntry} (started : zeroTime ≤ now)
    (tracks : Tracks options ip past now entry)
    (gone : lapsed options now entry = true) :
    Tracks options ip past now {} := by
  have unblocked : entry.blockedUntil ≤ now :=
    of_decide_eq_true (Bool.and_eq_true_iff.mp gone).1
  refine ⟨?_, ?_, List.Pairwise.nil, by simp⟩
  · intro later reached
    rw [← tracks.failures later reached, tracks.recent_lapsed gone reached]
    rfl
  · intro later reached
    rw [← tracks.deadline later reached]
    have unlocked : ¬ later < zeroTime :=
      not_lt.mpr (le_trans started reached)
    have ended : ¬ later < entry.blockedUntil :=
      not_lt.mpr (le_trans unblocked reached)
    exact iff_of_false unlocked ended

theorem recent_append (first second : List Time) :
    recent options now (first ++ second) =
      recent options now first ++ recent options now second :=
  List.filter_append first second

/-- What is outside a window is outside every later one. -/
theorem recent_recent {later : Time} (reached : now ≤ later)
    (failures : List Time) :
    recent options later (recent options now failures) =
      recent options later failures := by
  unfold recent
  rw [List.filter_filter]
  apply List.filter_congr
  intro failure _
  by_cases inside : timeSub later failure ≤ options.ipWindow
  · have before : timeSub now failure ≤ options.ipWindow :=
      le_trans (timeSub_le reached le_rfl) inside
    simp [inside, before]
  · simp [inside]

theorem length_recent_le {later : Time} (reached : now ≤ later)
    (failures : List Time) :
    (recent options later failures).length ≤
      (recent options now failures).length := by
  rw [← recent_recent reached failures]
  exact List.length_filter_le _ _

/-- Before the failure that blocks, the window holds too few. -/
theorem length_openFailures_lt {start : Time}
    (positive : 1 ≤ options.ipMaxFailures)
    (timely : Timely start past now) :
    ((recent options now (openFailures options ip past)).length : Int) <
      options.ipMaxFailures := by
  induction past generalizing now with
  | nil => exact positive
  | cons call past inductionHypothesis =>
      cases call with
      | blocked other time =>
          have before := inductionHypothesis timely.2
          have fewer := @length_recent_le options _ _ timely.1
            (openFailures options ip past)
          rw [openFailures]
          omega
      | recordFailure other time order =>
          have before := inductionHypothesis timely.2
          have fewer := @length_recent_le options _ _ timely.1
            (openFailures options ip past)
          rw [openFailures]
          split
          · split
            · exact positive
            · rename_i few
              have one : (recent options now [time]).length ≤ 1 :=
                List.length_filter_le _ _
              rw [recent_append, List.length_append]
              omega
          · omega
      | recordSuccess other =>
          have before := inductionHypothesis timely
          rw [openFailures]
          split
          · exact positive
          · exact before

/-- The failure that blocks is exactly the `IPMaxFailures`-th. -/
theorem reaches_iff_eq {start : Time}
    (positive : 1 ≤ options.ipMaxFailures)
    (timely : Timely start past now) :
    Reaches options ip past now ↔
      ((recent options now (openFailures options ip past)).length : Int) +
        1 = options.ipMaxFailures := by
  have few := @length_openFailures_lt options ip _ _ _ positive timely
  unfold Reaches
  omega

theorem Tracks.reaches_iff {entry : IPEntry}
    (tracks : Tracks options ip past now entry) :
    options.ipMaxFailures ≤
        ((recent options now entry.failures ++ [now]).length : Int) ↔
      Reaches options ip past now := by
  rw [tracks.failures now le_rfl, Reaches, List.length_append,
    List.length_singleton, Nat.cast_add, Nat.cast_one]

theorem openFailures_blocking (order : List String)
    (reaches : Reaches options ip past now) :
    openFailures options ip (.recordFailure ip now order :: past) = [] := by
  rw [openFailures, if_pos rfl]
  exact if_pos reaches

theorem openFailures_counted (order : List String)
    (few : ¬ Reaches options ip past now) :
    openFailures options ip (.recordFailure ip now order :: past) =
      openFailures options ip past ++ [now] := by
  rw [openFailures, if_pos rfl]
  exact if_neg few

/-- A failure that blocks its address. -/
theorem Tracks.blocking {start : Time} {entry : Option IPEntry}
    (tracks : Tracks options ip past now (entry.getD {}))
    (timely : Timely start past now) (order : List String)
    (reaches : Reaches options ip past now) :
    Tracks options ip (.recordFailure ip now order :: past) now
      (addFailure options now entry) := by
  have added : addFailure options now entry =
      { failures := [], blockedUntil := now + options.ipLockout } :=
    if_pos (tracks.reaches_iff.mpr reaches)
  rw [added]
  refine ⟨?_, ?_, List.Pairwise.nil, by simp⟩
  · intro later _
    rw [openFailures_blocking order reaches]
  · intro later reached
    rw [throttled_cons_iff]
    constructor
    · intro locked
      exact .inl ⟨now, order, rfl, reaches, locked⟩
    · rintro (⟨failure, _, same, _, locked⟩ | ⟨_, _, failure, visited,
        earlier, shape, _, _, locked⟩)
      · cases same
        exact locked
      · have listed : .recordFailure ip failure visited ∈ past := by
          rw [shape]
          simp
        have before := timely.times_le.2 ip failure visited listed
        exact lt_of_lt_of_le locked
          (add_le_add_left before options.ipLockout)

/-- A failure that leaves its address open. -/
theorem Tracks.counted {entry : Option IPEntry}
    (tracks : Tracks options ip past now (entry.getD {}))
    (order : List String) (few : ¬ Reaches options ip past now) :
    Tracks options ip (.recordFailure ip now order :: past) now
      (addFailure options now entry) := by
  have added : addFailure options now entry = {
      failures := recent options now (entry.getD {}).failures ++ [now]
      blockedUntil := (entry.getD {}).blockedUntil } :=
    if_neg (mt tracks.reaches_iff.mp few)
  rw [added]
  refine ⟨?_, ?_, ?_, ?_⟩
  · intro later reached
    rw [openFailures_counted order few, recent_append, recent_append,
      recent_recent reached, tracks.failures later reached]
  · intro later reached
    have earlier := tracks.deadline later reached
    rw [throttled_cons_iff]
    constructor
    · intro locked
      exact .inr ⟨by simp, earlier.mp locked⟩
    · rintro (⟨failure, _, same, reaches, _⟩ | ⟨_, throttled⟩)
      · cases same
        exact absurd reaches few
      · exact earlier.mpr throttled
  · apply List.pairwise_append.mpr
    refine ⟨tracks.ordered.filter _, List.pairwise_singleton _ _, ?_⟩
    intro failure member latest atEnd
    rw [List.mem_singleton.mp atEnd]
    exact tracks.elapsed failure (List.mem_of_mem_filter member)
  · intro failure member
    rcases List.mem_append.mp member with counted | latest
    · exact tracks.elapsed failure (List.mem_of_mem_filter counted)
    · exact le_of_eq (List.mem_singleton.mp latest)

theorem Tracks.recordFailure {start : Time} {entry : Option IPEntry}
    (tracks : Tracks options ip past now (entry.getD {}))
    (timely : Timely start past now) (order : List String) :
    Tracks options ip (.recordFailure ip now order :: past) now
      (addFailure options now entry) := by
  by_cases reaches : Reaches options ip past now
  · exact tracks.blocking timely order reaches
  · exact tracks.counted order reaches

theorem tracks_success (started : zeroTime ≤ now) :
    Tracks options ip (.recordSuccess ip :: past) now {} := by
  refine ⟨?_, ?_, List.Pairwise.nil, by simp⟩
  · intro later _
    rw [openFailures, if_pos rfl]
  · intro later reached
    have unlocked : ¬ later < zeroTime :=
      not_lt.mpr (le_trans started reached)
    have allowed :
        ¬ Throttled options ip (.recordSuccess ip :: past) later := by
      rw [throttled_cons_iff]
      simp
    exact iff_of_false unlocked allowed

/-- A call that is about another address, or only asks. -/
theorem Tracks.other {entry : IPEntry} {call : LimiterCall}
    (tracks : Tracks options ip past now entry)
    (sameFailures : openFailures options ip (call :: past) =
      openFailures options ip past)
    (noFailure : ∀ failure order, call ≠ .recordFailure ip failure order)
    (noSuccess : call ≠ .recordSuccess ip) :
    Tracks options ip (call :: past) now entry where
  failures := by
    rw [sameFailures]
    exact tracks.failures
  deadline := by
    intro later reached
    rw [tracks.deadline later reached, throttled_cons_iff]
    constructor
    · intro throttled
      exact .inr ⟨noSuccess, throttled⟩
    · rintro (⟨failure, order, same, -⟩ | ⟨-, throttled⟩)
      · exact absurd same (noFailure failure order)
      · exact throttled
  ordered := tracks.ordered
  elapsed := tracks.elapsed

/-! ## Every history -/

/-- What a limiter holds about an address. -/
def IPLimiter.entryOf (limiter : IPLimiter) (ip : String) : IPEntry :=
  (find? ip limiter.entries).getD {}

theorem Tracks.blocked_iff {limiter : IPLimiter} (someIP : ip ≠ "")
    (started : zeroTime ≤ now)
    (tracks : Tracks options ip past now (limiter.entryOf ip)) :
    limiter.blocked ip now = true ↔ Throttled options ip past now := by
  rw [← tracks.deadline now le_rfl]
  unfold blocked IPLimiter.entryOf
  cases find? ip limiter.entries with
  | none =>
      have unlocked : ¬ now < zeroTime := not_lt.mpr started
      simpa using unlocked
  | some entry => simp [someIP]

/-- A recorded failure, whatever happened to the entry before. -/
theorem Tracks.adjusted {start : Time} {entries : List (String × IPEntry)}
    {other : String} (timely : Timely start past now)
    (order : List String)
    (tracks : Tracks options ip past now
      (IPLimiter.entryOf ⟨entries⟩ ip)) :
    Tracks options ip (.recordFailure other now order :: past) now
      (IPLimiter.entryOf
        ⟨adjust other (addFailure options now) entries⟩ ip) := by
  unfold IPLimiter.entryOf
  rw [find?_adjust]
  by_cases same : ip = other
  · subst same
    rw [if_pos rfl]
    exact tracks.recordFailure timely order
  · rw [if_neg same]
    apply tracks.other
    · rw [openFailures, if_neg (Ne.symm same)]
    · intro failure visited equal
      cases equal
      exact same rfl
    · simp

theorem Tracks.forgotten {limiter : IPLimiter} {other : String}
    (started : zeroTime ≤ now)
    (tracks : Tracks options ip past now (limiter.entryOf ip)) :
    Tracks options ip (.recordSuccess other :: past) now
      ((limiter.recordSuccess other).entryOf ip) := by
  unfold IPLimiter.entryOf IPLimiter.recordSuccess
  rw [find?_filter_ne]
  by_cases same : ip = other
  · subst same
    rw [if_pos rfl]
    exact tracks_success started
  · rw [if_neg same]
    apply tracks.other
    · rw [openFailures, if_neg (Ne.symm same)]
    · simp
    · intro equal
      cases equal
      exact same rfl

/-- A call that the limiter ignores. -/
theorem Tracks.ignored {limiter : IPLimiter} {call : LimiterCall}
    (someIP : ip ≠ "")
    (tracks : Tracks options ip past now (limiter.entryOf ip))
    (ignored : (∃ other, call = .blocked other now) ∨
      ∃ order, call = .recordFailure "" now order) :
    Tracks options ip (call :: past) now (limiter.entryOf ip) := by
  rcases ignored with ⟨other, rfl⟩ | ⟨order, rfl⟩
  · exact tracks.other rfl (by simp) (by simp)
  · apply tracks.other
    · rw [openFailures, if_neg (Ne.symm someIP)]
    · intro failure visited equal
      cases equal
      exact someIP rfl
    · simp

/-- Pruning says nothing new about an address. -/
theorem Tracks.pruned {limiter : IPLimiter} (started : zeroTime ≤ now)
    (unique : (keys limiter.entries).Nodup)
    (tracks : Tracks options ip past now (limiter.entryOf ip)) :
    Tracks options ip past now
      ((limiter.prune options now).entryOf ip) := by
  unfold IPLimiter.entryOf at tracks ⊢
  rcases find?_prune unique ip with same | ⟨gone, entry, found, old⟩
  · rw [same]
    exact tracks
  · rw [found] at tracks
    rw [gone]
    exact tracks.of_lapsed started old

theorem limiterAfter_tracks (someIP : ip ≠ "")
    (timely : Timely zeroTime past now) (ranged : Ranged options past) :
    Tracks options ip past now
      ((limiterAfter options past).entryOf ip) := by
  induction past generalizing now with
  | nil => exact tracks_nil timely
  | cons call past inductionHypothesis =>
      cases call with
      | blocked other time =>
          have before := inductionHypothesis timely.2 ranged
          exact (before.ignored someIP (.inl ⟨other, rfl⟩)).mono timely.1
      | recordFailure other time order =>
          have before := inductionHypothesis timely.2 ranged.2
          have unique := limiterAfter_nodup ranged.2
          refine Tracks.mono ?_ timely.1
          rw [limiterAfter]
          by_cases empty : other = ""
          · subst empty
            rw [if_pos rfl]
            exact before.ignored someIP (.inr ⟨order, rfl⟩)
          · rw [if_neg empty, pruneInOrder_eq unique ranged.1]
            exact (before.pruned timely.2.times_le.1 unique).adjusted
              timely.2 order
      | recordSuccess other =>
          have before := inductionHypothesis timely ranged
          exact before.forgotten timely.times_le.1

theorem unprunedAfter_tracks (someIP : ip ≠ "")
    (timely : Timely zeroTime past now) :
    Tracks options ip past now
      ((unprunedAfter options past).entryOf ip) := by
  induction past generalizing now with
  | nil => exact tracks_nil timely
  | cons call past inductionHypothesis =>
      cases call with
      | blocked other time =>
          have before := inductionHypothesis timely.2
          exact (before.ignored someIP (.inl ⟨other, rfl⟩)).mono timely.1
      | recordFailure other time order =>
          have before := inductionHypothesis timely.2
          refine Tracks.mono ?_ timely.1
          rw [unprunedAfter]
          by_cases empty : other = ""
          · subst empty
            rw [if_pos rfl]
            exact before.ignored someIP (.inr ⟨order, rfl⟩)
          · rw [if_neg empty]
            exact before.adjusted timely.2 order
      | recordSuccess other =>
          have before := inductionHypothesis timely
          exact before.forgotten timely.times_le.1

/-- From the zero time on, an address is blocked exactly when the sliding
window says so, with and without pruning. -/
theorem blocked_iff_throttled (someIP : ip ≠ "")
    (timely : Timely zeroTime past now) (ranged : Ranged options past) :
    ((limiterAfter options past).blocked ip now = true ↔
        Throttled options ip past now) ∧
      (limiterAfter options past).blocked ip now =
        (unprunedAfter options past).blocked ip now := by
  have started := timely.times_le.1
  have pruning :=
    (limiterAfter_tracks someIP timely ranged).blocked_iff someIP started
  have keeping :=
    (@unprunedAfter_tracks options _ _ _ someIP timely).blocked_iff
      someIP started
  exact ⟨pruning, Bool.eq_iff_iff.mpr (pruning.trans keeping.symm)⟩

end Throttling

/-- Two failures block an address. -/
def twoFailures : AuthOptions :=
  ({ ipMaxFailures := 2 } : AuthOptions).applyDefaults

theorem two_failures_block :
    ((limiterAfter twoFailures
        [.recordFailure "203.0.113.7" 1 ["203.0.113.7"],
          .recordFailure "203.0.113.7" 0 []]).blocked "203.0.113.7" 2 =
          true ↔
      Throttled twoFailures "203.0.113.7"
        [.recordFailure "203.0.113.7" 1 ["203.0.113.7"],
          .recordFailure "203.0.113.7" 0 []] 2) ∧
    (limiterAfter twoFailures
        [.recordFailure "203.0.113.7" 1 ["203.0.113.7"],
          .recordFailure "203.0.113.7" 0 []]).blocked "203.0.113.7" 2 =
      (unprunedAfter twoFailures
        [.recordFailure "203.0.113.7" 1 ["203.0.113.7"],
          .recordFailure "203.0.113.7" 0 []]).blocked "203.0.113.7" 2 := by
  have tracked : keys (limiterAfter twoFailures
      [.recordFailure "203.0.113.7" 0 []]).entries = ["203.0.113.7"] := by
    decide
  have started : zeroTime ≤ 0 := by decide
  apply blocked_iff_throttled
  · decide
  · exact ⟨by decide, by decide, started⟩
  · exact ⟨tracked ▸ List.Perm.refl _, List.Perm.refl _, trivial⟩

/-- Before the year 1, where the zero time lies ahead, one failure
blocks. -/
theorem blocked_before_zeroTime :
    Timely (zeroTime - 2)
        [.recordFailure "203.0.113.7" (zeroTime - 2) []] (zeroTime - 1) ∧
      Ranged ({} : AuthOptions).applyDefaults
        [.recordFailure "203.0.113.7" (zeroTime - 2) []] ∧
      (limiterAfter ({} : AuthOptions).applyDefaults
        [.recordFailure "203.0.113.7" (zeroTime - 2) []]).blocked
          "203.0.113.7" (zeroTime - 1) = true ∧
      ¬ Throttled ({} : AuthOptions).applyDefaults "203.0.113.7"
        [.recordFailure "203.0.113.7" (zeroTime - 2) []]
        (zeroTime - 1) := by
  refine ⟨⟨by decide, le_rfl⟩, ⟨List.Perm.refl _, trivial⟩, by decide, ?_⟩
  rw [throttled_cons_iff]
  rintro (⟨failure, order, same, reaches, -⟩ | ⟨-, throttled⟩)
  · cases same
    exact absurd reaches (by unfold Reaches; decide)
  · exact not_throttled_nil throttled

end Xoxproxy
