import Xoxproxy.Analytics.Charges

/-!
# The stamps of a flush

The aggregator keeps one stamp for every username, the time of its newest
record.  `TakePending` writes it into every delta of the username.  When
every destination of a flush has a record as new as that, the deltas carry
the stamps of their own destinations.
-/

namespace Xoxproxy.Analytics

open AssociationMaps

namespace Posting

variable (posting : Posting)

def username : String := posting.entry.record.username

def date : String := posting.entry.record.day

def millis : Int := posting.entry.record.unixMillis

end Posting

/-- Both records are counted under one destination of one username. -/
structure SameCounter (first second : Posting) : Prop where
  username : first.username = second.username
  date : first.date = second.date
  slot : first.slot = second.slot

instance (first second : Posting) : Decidable (SameCounter first second) :=
  decidable_of_iff
    (first.username = second.username ∧ first.date = second.date ∧
      first.slot = second.slot)
    ⟨fun ⟨name, date, slot⟩ => ⟨name, date, slot⟩,
      fun ⟨name, date, slot⟩ => ⟨name, date, slot⟩⟩

theorem SameCounter.symm {first second : Posting}
    (same : SameCounter first second) : SameCounter second first :=
  ⟨same.username.symm, same.date.symm, same.slot.symm⟩

theorem SameCounter.trans {first second third : Posting}
    (early : SameCounter first second) (late : SameCounter second third) :
    SameCounter first third :=
  ⟨early.username.trans late.username, early.date.trans late.date,
    early.slot.trans late.slot⟩

/-- The stamp and the destinations of a username are those of its pending
records. -/
structure FollowsUser (name : String) (user : UserAgg)
    (pending : List Posting) : Prop where
  days : (keys user.days).Nodup
  seen : ∀ posting ∈ pending, posting.username = name →
    posting.millis ≤ user.lastSeenUnix
  witnessed : user.lastSeenUnix = 0 ∨
    ∃ posting ∈ pending, posting.username = name ∧
      posting.millis = user.lastSeenUnix
  counted : ∀ day ∈ user.days, ∀ slot ∈ keys day.2.dests,
    ∃ posting ∈ pending, posting.username = name ∧
      posting.date = day.1 ∧ posting.slot = slot
  covered : ∀ posting ∈ pending, posting.username = name →
    ∃ day ∈ user.days, day.1 = posting.date ∧
      posting.slot ∈ keys day.2.dests

structure Follows (aggregator : Aggregator) (pending : List Posting) :
    Prop where
  names : (keys aggregator.users).Nodup
  users : ∀ entry ∈ aggregator.users,
    FollowsUser entry.1 entry.2 pending
  covered : ∀ posting ∈ pending,
    posting.username ∈ keys aggregator.users

theorem follows_empty {aggregator : Aggregator}
    (empty : aggregator.users = []) : Follows aggregator [] where
  names := by simp [empty, keys]
  users := by simp [empty]
  covered := by simp

section Adding

variable {name : String} {user : UserAgg} {pending : List Posting}
variable {posting : Posting} {maxDests : Nat}

/-- Records of other usernames do not matter. -/
theorem FollowsUser.other (follows : FollowsUser name user pending)
    (other : posting.username ≠ name) :
    FollowsUser name user (pending ++ [posting]) where
  days := follows.days
  seen := by
    intro one listed same
    rcases List.mem_append.mp listed with old | new
    · exact follows.seen one old same
    · rw [List.mem_singleton.mp new] at same
      exact absurd same other
  witnessed := by
    rcases follows.witnessed with none | ⟨one, listed, same⟩
    · exact .inl none
    · exact .inr ⟨one, List.mem_append_left _ listed, same⟩
  counted := by
    intro day dayListed slot slotListed
    obtain ⟨one, listed, same⟩ :=
      follows.counted day dayListed slot slotListed
    exact ⟨one, List.mem_append_left _ listed, same⟩
  covered := by
    intro one listed same
    rcases List.mem_append.mp listed with old | new
    · exact follows.covered one old same
    · rw [List.mem_singleton.mp new] at same
      exact absurd same other

/-- A username without pending records starts from nothing. -/
theorem followsUser_fresh
    (absent : ∀ posting ∈ pending, posting.username ≠ name) :
    FollowsUser name {} pending where
  days := List.nodup_nil
  seen := fun one listed same => absurd same (absent one listed)
  witnessed := .inl rfl
  counted := by simp
  covered := fun one listed same => absurd same (absent one listed)

/-- The destinations of a day after a record. -/
theorem mem_keys_dests_add (record : Record) (day : DayAgg)
    (slot : DestKey) :
    slot ∈ keys (day.add maxDests record).dests ↔
      slot = day.slot maxDests record ∨ slot ∈ keys day.dests :=
  mem_keys_adjust

theorem FollowsUser.add (follows : FollowsUser name user pending)
    (owner : posting.username = name)
    (slot : posting.slot =
      (user.day posting.date).slot maxDests posting.entry.record) :
    FollowsUser name (user.add maxDests posting.entry.record)
      (pending ++ [posting]) := by
  have stamp : (user.add maxDests posting.entry.record).lastSeenUnix =
      if user.lastSeenUnix < posting.millis then posting.millis
      else user.lastSeenUnix := rfl
  have newDay : (posting.date,
      (user.day posting.date).add maxDests posting.entry.record) ∈
        (user.add maxDests posting.entry.record).days :=
    (mem_adjust follows.days).mpr (.inl rfl)
  refine ⟨keys_adjust_nodup follows.days, ?_, ?_, ?_, ?_⟩
  · intro one listed same
    rw [stamp]
    rcases List.mem_append.mp listed with old | new
    · have before := follows.seen one old same
      split <;> omega
    · rw [List.mem_singleton.mp new]
      split <;> omega
  · rw [stamp]
    by_cases newer : user.lastSeenUnix < posting.millis
    · rw [if_pos newer]
      exact .inr ⟨posting, by simp, owner, rfl⟩
    · rw [if_neg newer]
      rcases follows.witnessed with none | ⟨one, listed, same⟩
      · exact .inl none
      · exact .inr ⟨one, List.mem_append_left _ listed, same⟩
  · intro day dayListed key keyListed
    rcases (mem_adjust follows.days).mp dayListed with rfl | ⟨-, old⟩
    · rcases (mem_keys_dests_add _ _ _).mp keyListed with rfl | before
      · exact ⟨posting, by simp, owner, rfl, slot⟩
      · have known : (posting.date, user.day posting.date) ∈ user.days := by
          have there : key ∈ keys (user.day posting.date).dests := before
          unfold UserAgg.day at there ⊢
          cases found : find? posting.date user.days with
          | none =>
              rw [found] at there
              cases there
          | some agg => exact find?_mem found
        obtain ⟨one, listed, same⟩ :=
          follows.counted _ known key before
        exact ⟨one, List.mem_append_left _ listed, same⟩
    · obtain ⟨one, listed, same⟩ := follows.counted day old key keyListed
      exact ⟨one, List.mem_append_left _ listed, same⟩
  · intro one listed same
    rcases List.mem_append.mp listed with old | new
    · obtain ⟨day, dayListed, date, slotListed⟩ :=
        follows.covered one old same
      by_cases today : day.1 = posting.date
      · refine ⟨_, newDay, today.symm.trans date, ?_⟩
        have known : user.day posting.date = day.2 := by
          unfold UserAgg.day
          rw [← today, find?_of_mem follows.days dayListed]
          rfl
        rw [mem_keys_dests_add, known]
        exact .inr slotListed
      · exact ⟨day, (mem_adjust follows.days).mpr (.inr ⟨today, dayListed⟩),
          date, slotListed⟩
    · rw [List.mem_singleton.mp new]
      exact ⟨_, newDay, rfl, (mem_keys_dests_add _ _ _).mpr (.inl slot)⟩

/-- A record that is added is followed. -/
theorem Follows.addUser {aggregator : Aggregator}
    (follows : Follows aggregator pending) (entry : Entry) :
    Follows (aggregator.addUser entry.record)
      (pending ++ [⟨entry, aggregator.slot entry.record⟩]) := by
  let user := (find? entry.record.username aggregator.users).getD {}
  have found : FollowsUser entry.record.username user pending := by
    unfold user
    cases known : find? entry.record.username aggregator.users with
    | none =>
        apply followsUser_fresh
        intro posting listed same
        have member := follows.covered posting listed
        rw [same] at member
        exact find?_eq_none_iff.mp known member
    | some user => exact follows.users _ (find?_mem known)
  have slot : aggregator.slot entry.record =
      (user.day entry.record.day).slot aggregator.maxDests entry.record := rfl
  have added : FollowsUser entry.record.username
      (user.add aggregator.maxDests entry.record)
      (pending ++ [⟨entry, aggregator.slot entry.record⟩]) :=
    @FollowsUser.add _ user pending ⟨entry, aggregator.slot entry.record⟩
      aggregator.maxDests found rfl slot
  refine ⟨keys_adjust_nodup follows.names, ?_, ?_⟩
  · intro changed listed
    rcases (mem_adjust follows.names).mp listed with new | ⟨other, old⟩
    · rw [new]
      exact added
    · exact (follows.users changed old).other (Ne.symm other)
  · intro posting listed
    apply mem_keys_adjust.mpr
    rcases List.mem_append.mp listed with old | new
    · exact .inr (follows.covered posting old)
    · rw [List.mem_singleton.mp new]
      exact .inl rfl

/-- Only the users of an aggregator matter. -/
theorem Follows.of_same {aggregator other : Aggregator}
    (follows : Follows aggregator pending)
    (users : other.users = aggregator.users) : Follows other pending where
  names := by rw [users]; exact follows.names
  users := by rw [users]; exact follows.users
  covered := by rw [users]; exact follows.covered

end Adding

/-! ## What a batch carries -/

/-- A contribution carries some records: it has a delta for each of their
destinations, with the stamp of the newest record there. -/
structure Carries (delta : PendingDelta) (postings : List Posting) :
    Prop where
  names : ∀ posting ∈ postings, posting.username = delta.username
  covers : ∀ posting ∈ postings, ∃ dest ∈ delta.dests,
    dest.day = posting.date ∧ destinationKey dest = posting.slot
  stamped : ∀ dest ∈ delta.dests, ∃ newest ∈ postings,
    dest.day = newest.date ∧ destinationKey dest = newest.slot ∧
      dest.lastSeen = unixMilli newest.millis ∧
      ∀ other ∈ postings, SameCounter other newest →
        other.millis ≤ newest.millis

/-- Where the second records have a destination of the first, they have one
that is as new. -/
def NotBefore (first second : List Posting) : Prop :=
  ∀ old ∈ first, ∀ posting ∈ second, SameCounter posting old →
    ∃ newer ∈ second, SameCounter newer old ∧ old.millis ≤ newer.millis

/-- The contributions of a batch carry its records, the later ones the
newer records. -/
structure Stamped (deltas : List PendingDelta) (batch : List Posting) :
    Prop where
  parts : ∃ parts : List (PendingDelta × List Posting),
    parts.map Prod.fst = deltas ∧
    (∀ part ∈ parts, Carries part.1 part.2) ∧
    (∀ posting, posting ∈ batch ↔ ∃ part ∈ parts, posting ∈ part.2) ∧
    parts.Pairwise fun earlier later => NotBefore earlier.2 later.2

theorem stamped_nil : Stamped [] [] where
  parts := ⟨[], rfl, by simp, by simp, .nil⟩

/-- Every destination of a flush has a record that is as new as the newest
one of its username, and none older than what waits for another try. -/
def TakesNewest (pending retried : List Posting) : Prop :=
  ∀ posting ∈ pending, ∃ newest ∈ pending, SameCounter newest posting ∧
    0 ≤ newest.millis ∧
    (∀ other ∈ pending, other.username = posting.username →
      other.millis ≤ newest.millis) ∧
    ∀ other ∈ retried, SameCounter other posting →
      other.millis ≤ newest.millis

instance (pending retried : List Posting) :
    Decidable (TakesNewest pending retried) :=
  inferInstanceAs (Decidable (∀ _ ∈ _, _))

section Taking

variable {aggregator : Aggregator} {pending retried : List Posting}

/-- What is taken of one username. -/
theorem FollowsUser.carries {name : String} {user : UserAgg}
    (follows : FollowsUser name user pending)
    (newest : TakesNewest pending retried) :
    Carries (pendingDelta name user)
      (pending.filter fun posting => posting.username = name) where
  names := by
    intro posting listed
    have owner := (List.mem_filter.mp listed).2
    exact of_decide_eq_true owner
  covers := by
    intro posting listed
    obtain ⟨member, owner⟩ := List.mem_filter.mp listed
    obtain ⟨day, dayListed, date, slotListed⟩ :=
      follows.covered posting member (by simpa using owner)
    obtain ⟨dest, destListed, slot⟩ := List.mem_map.mp slotListed
    refine ⟨destinationDelta day.1 user.lastSeenUnix dest.1 dest.2, ?_,
      date, slot⟩
    exact List.mem_flatMap.mpr
      ⟨day, dayListed, List.mem_map.mpr ⟨dest, destListed, rfl⟩⟩
  stamped := by
    intro delta listed
    obtain ⟨day, dayListed, inDay⟩ := List.mem_flatMap.mp listed
    obtain ⟨dest, destListed, rfl⟩ := List.mem_map.mp inDay
    obtain ⟨posting, member, owner, date, slot⟩ :=
      follows.counted day dayListed dest.1
        (List.mem_map.mpr ⟨dest, destListed, rfl⟩)
    obtain ⟨top, topListed, same, positive, above, -⟩ :=
      newest posting member
    have topOwner : top.username = name := same.username.trans owner
    -- The stamp of the username is that of the newest record.
    have stamp : user.lastSeenUnix = top.millis := by
      have lower := follows.seen top topListed topOwner
      rcases follows.witnessed with none | ⟨other, otherListed, named, time⟩
      · omega
      · have upper := above other otherListed (named.trans owner.symm)
        omega
    refine ⟨top, List.mem_filter.mpr ⟨topListed, by simpa using topOwner⟩,
      ?_, ?_, ?_, ?_⟩
    · exact date.symm.trans same.date.symm
    · exact slot.symm.trans same.slot.symm
    · rw [← stamp]
      rfl
    · intro other otherListed _
      obtain ⟨inPending, named⟩ := List.mem_filter.mp otherListed
      apply above other inPending
      have sameName : other.username = name := by simpa using named
      exact sameName.trans owner.symm

theorem Carries.reordered {first second : PendingDelta}
    {postings : List Posting} (carries : Carries first postings)
    (reordered : Reordered first second) : Carries second postings where
  names := by
    rw [reordered.username]
    exact carries.names
  covers := by
    intro posting listed
    obtain ⟨dest, member, same⟩ := carries.covers posting listed
    exact ⟨dest, reordered.dests.mem_iff.mpr member, same⟩
  stamped := fun dest listed =>
    carries.stamped dest (reordered.dests.mem_iff.mp listed)

theorem mem_of_forall₂_left {Item Other : Type}
    {relation : Item → Other → Prop} {first : List Item}
    {second : List Other} (related : List.Forall₂ relation first second)
    {item : Item} (member : item ∈ first) :
    ∃ other ∈ second, relation item other := by
  induction related with
  | nil => cases member
  | cons here _ inductionHypothesis =>
      rcases List.mem_cons.mp member with rfl | later
      · exact ⟨_, List.mem_cons_self, here⟩
      · obtain ⟨other, listed, holds⟩ := inductionHypothesis later
        exact ⟨other, List.mem_cons_of_mem _ listed, holds⟩

/-- The part of a contribution among the pending records. -/
def partOf (pending : List Posting) (delta : PendingDelta) :
    PendingDelta × List Posting :=
  (delta, pending.filter fun posting => posting.username = delta.username)

/-- What is taken carries the pending records. -/
theorem Follows.taken (follows : Follows aggregator pending)
    (newest : TakesNewest pending retried) (order : TakeOrder) :
    (∀ delta ∈ (aggregator.takePending order).1,
      Carries delta (partOf pending delta).2) ∧
    ∀ posting ∈ pending, ∃ delta ∈ (aggregator.takePending order).1,
      posting ∈ (partOf pending delta).2 := by
  obtain ⟨reordered, permuted, visited⟩ :=
    order.visits (aggregator.users.map fun entry =>
      pendingDelta entry.1 entry.2)
  constructor
  · intro delta listed
    obtain ⟨original, from_, same⟩ := mem_of_forall₂ visited listed
    obtain ⟨entry, member, rfl⟩ := List.mem_map.mp (permuted.mem_iff.mp from_)
    have name : delta.username = entry.1 := same.username
    rw [partOf, name]
    exact ((follows.users entry member).carries newest).reordered same
  · intro posting listed
    obtain ⟨entry, member, owner⟩ :=
      List.mem_map.mp (follows.covered posting listed)
    obtain ⟨delta, taken, same⟩ := mem_of_forall₂_left visited
      (permuted.mem_iff.mpr (List.mem_map.mpr ⟨entry, member, rfl⟩))
    have name : delta.username = entry.1 := same.username
    refine ⟨delta, taken, List.mem_filter.mpr ⟨listed, ?_⟩⟩
    simp [name, ← owner]

/-- The batch of a flush: what waits for another try, and what is taken. -/
theorem Stamped.take {retry : List PendingDelta}
    (stamped : Stamped retry retried) (follows : Follows aggregator pending)
    (newest : TakesNewest pending retried) (order : TakeOrder) :
    Stamped (retry ++ (aggregator.takePending order).1)
      (retried ++ pending) where
  parts := by
    obtain ⟨carried, covered⟩ := follows.taken newest order
    obtain ⟨parts, deltas, carries, members, ordered⟩ := stamped.parts
    generalize (aggregator.takePending order).1 = taken at carried covered ⊢
    refine ⟨parts ++ taken.map (partOf pending), ?_, ?_, ?_, ?_⟩
    · rw [List.map_append, deltas, List.map_map]
      exact congrArg (retry ++ ·) (List.map_id taken)
    · intro part listed
      rcases List.mem_append.mp listed with old | new
      · exact carries part old
      · obtain ⟨delta, member, rfl⟩ := List.mem_map.mp new
        exact carried delta member
    · intro posting
      constructor
      · intro listed
        rcases List.mem_append.mp listed with old | new
        · obtain ⟨part, member, inside⟩ := (members posting).mp old
          exact ⟨part, List.mem_append_left _ member, inside⟩
        · obtain ⟨delta, member, inside⟩ := covered posting new
          exact ⟨_, List.mem_append_right _
            (List.mem_map.mpr ⟨delta, member, rfl⟩), inside⟩
      · rintro ⟨part, listed, inside⟩
        rcases List.mem_append.mp listed with old | new
        · exact List.mem_append_left _
            ((members posting).mpr ⟨part, old, inside⟩)
        · obtain ⟨delta, -, rfl⟩ := List.mem_map.mp new
          exact List.mem_append_right _ (List.mem_filter.mp inside).1
    · rw [List.pairwise_append]
      refine ⟨ordered, ?_, ?_⟩
      · rw [List.pairwise_map]
        apply List.pairwise_of_forall
        -- Two contributions to one destination are those of one username.
        intro first second old oldListed posting listed same
        refine ⟨old, ?_, ⟨rfl, rfl, rfl⟩, Int.le_refl _⟩
        obtain ⟨member, _⟩ := List.mem_filter.mp oldListed
        obtain ⟨_, owner⟩ := List.mem_filter.mp listed
        refine List.mem_filter.mpr ⟨member, ?_⟩
        rw [← same.username]
        exact owner
      · intro part listed later laterListed old oldListed posting inside same
        obtain ⟨delta, -, rfl⟩ := List.mem_map.mp laterListed
        obtain ⟨member, owner⟩ := List.mem_filter.mp inside
        obtain ⟨top, topListed, sameTop, -, -, above⟩ :=
          newest posting member
        have waiting : old ∈ retried :=
          (members old).mpr ⟨part, listed, oldListed⟩
        refine ⟨top, ?_, sameTop.trans same, above old waiting same.symm⟩
        refine List.mem_filter.mpr ⟨topListed, ?_⟩
        rw [sameTop.username]
        exact owner

end Taking

end Xoxproxy.Analytics
