import Xoxproxy.Analytics.Balance

/-!
# Usernames that are being resolved

A flush looks every username of its batch up once and books the deltas of
the batch under the ids it has found.
-/

namespace Xoxproxy.Analytics

open AssociationMaps RowTables Transactions

/-- The deltas of a contribution under the id of its username. -/
def PendingDelta.destsUnder (idOf : String → Int) (delta : PendingDelta) :
    List DestinationDelta :=
  if idOf delta.username = 0 then []
  else delta.dests.map fun dest =>
    { dest with userID := idOf delta.username }

/-- The destinations that are booked are those of the contributions
resolved so far. -/
structure Resolution.Lists
    (resolution : Resolution) (booked : List PendingDelta) : Prop where
  split : resolution.pending = booked ++ resolution.remaining
  known : ∀ delta ∈ booked,
    find? delta.username resolution.ids ≠ none
  dests : resolution.dests =
    booked.flatMap (PendingDelta.destsUnder resolution.idOf)

namespace Resolution

theorem charge_ids (resolution : Resolution) (delta : PendingDelta)
    (rest : List PendingDelta) (id : Int) :
    (resolution.charge delta rest id).ids = resolution.ids := by
  by_cases unknown : id = 0
  · rw [Resolution.charge, if_pos unknown]
  · rw [Resolution.charge, if_neg unknown]

variable {resolution : Resolution} {booked : List PendingDelta}

theorem Lists.know (lists : resolution.Lists booked)
    (username : String) (id : Int) :
    (resolution.know username id).Lists booked := by
  have same : ∀ delta ∈ booked,
      find? delta.username (resolution.know username id).ids =
        find? delta.username resolution.ids := by
    intro delta member
    rw [Resolution.know, find?_append]
    cases found : find? delta.username resolution.ids with
    | none => exact absurd found (lists.known delta member)
    | some other => rfl
  refine ⟨lists.split, ?_, ?_⟩
  · intro delta member
    rw [same delta member]
    exact lists.known delta member
  · refine lists.dests.trans ?_
    apply List.flatMap_congr
    intro delta member
    rw [PendingDelta.destsUnder, PendingDelta.destsUnder, idOf, idOf,
      same delta member]

theorem Lists.charge (lists : resolution.Lists booked)
    {delta : PendingDelta} {rest : List PendingDelta} {id : Int}
    (next : resolution.remaining = delta :: rest)
    (known : find? delta.username resolution.ids = some id) :
    (resolution.charge delta rest id).Lists (booked ++ [delta]) := by
  have owner : resolution.idOf delta.username = id := by
    rw [idOf, known, Option.getD_some]
  have split : resolution.pending = booked ++ [delta] ++ rest := by
    rw [lists.split, next, List.append_assoc, List.singleton_append]
  have names : ∀ other ∈ booked ++ [delta],
      find? other.username resolution.ids ≠ none := by
    intro other member
    rcases List.mem_append.mp member with old | new
    · exact lists.known other old
    · rw [List.mem_singleton.mp new, known]
      exact Option.some_ne_none id
  have dests : (booked ++ [delta]).flatMap
      (PendingDelta.destsUnder resolution.idOf) =
        resolution.dests ++ delta.destsUnder resolution.idOf := by
    rw [List.flatMap_append, lists.dests, List.flatMap_singleton]
  by_cases unknown : id = 0
  · rw [Resolution.charge, if_pos unknown]
    refine ⟨split, names, Eq.trans ?_ dests.symm⟩
    rw [PendingDelta.destsUnder, owner, if_pos unknown, List.append_nil]
  · rw [Resolution.charge, if_neg unknown]
    refine ⟨split, names, Eq.trans ?_ dests.symm⟩
    rw [PendingDelta.destsUnder, owner, if_neg unknown]

end Resolution

/-- Ids that were looked up for usernames: whoever has one of them has its
username. -/
structure IdsNamed (database : Database) (ids : List (String × Int)) :
    Prop where
  issued : ∀ pair ∈ ids, pair.2 ≤ database.userSequence
  named : ∀ pair ∈ ids, ∀ account ∈ accounts database,
    account.1 = pair.2 → account.2 = pair.1
  apart : ∀ first ∈ ids, ∀ second ∈ ids, first.2 ≠ 0 →
    first.2 = second.2 → first.1 = second.1

section Ids

variable {database after : Database} {ids : List (String × Int)}

theorem idsNamed_nil (database : Database) : IdsNamed database [] where
  issued := by simp
  named := by simp
  apart := by simp

theorem IdsNamed.of_accounts (named : IdsNamed database ids)
    (same : accounts after = accounts database)
    (sequence : after.userSequence = database.userSequence) :
    IdsNamed after ids where
  issued := by rw [sequence]; exact named.issued
  named := by rw [same]; exact named.named
  apart := named.apart

theorem IdsNamed.change (named : IdsNamed database ids)
    (change : AccountChange database after) : IdsNamed after ids := by
  cases change with
  | kept _ same sequence => exact named.of_accounts same sequence
  | created _ name free added sequence =>
      refine ⟨?_, ?_, named.apart⟩
      · intro pair listed
        have before := named.issued pair listed
        rw [sequence]
        omega
      · intro pair listed account member same
        rw [added] at member
        rcases List.mem_append.mp member with old | new
        · exact named.named pair listed account old same
        · have before := named.issued pair listed
          rw [List.mem_singleton.mp new] at same
          change database.userSequence + 1 = pair.2 at same
          omega
  | deleted id =>
      refine ⟨named.issued, ?_, named.apart⟩
      intro pair listed account member same
      obtain ⟨row, kept, rfl⟩ := List.mem_map.mp member
      have old : row ∈ database.users := (mem_deleteWhere.mp kept).1
      exact named.named pair listed _ (List.mem_map.mpr ⟨row, old, rfl⟩) same

/-- A username that is looked up now. -/
theorem IdsNamed.learn (named : IdsNamed database ids)
    (consistent : Consistent database) {username : String} {id : Int}
    (found : id = 0 ∨ ∃ row ∈ database.users,
      row.username = username ∧ row.id = id) :
    IdsNamed database (ids ++ [(username, id)]) := by
  have owner : ∀ account ∈ accounts database, account.1 = id →
      account.2 = username := by
    intro account member same
    obtain ⟨row, listed, rfl⟩ := List.mem_map.mp member
    rcases found with rfl | ⟨other, otherListed, rfl, rfl⟩
    · have issued := consistent.issued row listed
      have zero : row.id = 0 := same
      omega
    · have row_eq : row = other :=
        List.inj_on_of_nodup_map consistent.ids listed otherListed same
      rw [row_eq]
  have bounded : id ≤ database.userSequence := by
    rcases found with rfl | ⟨other, otherListed, -, rfl⟩
    · exact consistent.sequence
    · exact (consistent.issued other otherListed).2
  have first : ∀ pair ∈ ids, id ≠ 0 → pair.2 = id → pair.1 = username := by
    intro pair listed real same
    rcases found with zero | ⟨other, otherListed, name, otherId⟩
    · exact absurd zero real
    · have account : (other.id, other.username) ∈ accounts database :=
        List.mem_map.mpr ⟨other, otherListed, rfl⟩
      have old := named.named pair listed _ account (otherId.trans same.symm)
      rw [← name]
      exact old.symm
  refine ⟨?_, ?_, ?_⟩
  · intro pair listed
    rcases List.mem_append.mp listed with old | new
    · exact named.issued pair old
    · rw [List.mem_singleton.mp new]
      exact bounded
  · intro pair listed
    rcases List.mem_append.mp listed with old | new
    · exact named.named pair old
    · rw [List.mem_singleton.mp new]
      exact owner
  · intro one oneListed two twoListed real same
    rcases List.mem_append.mp oneListed with oneOld | oneNew
    · rcases List.mem_append.mp twoListed with twoOld | twoNew
      · exact named.apart one oneOld two twoOld real same
      · rw [List.mem_singleton.mp twoNew] at same ⊢
        rw [same] at real
        exact first one oneOld real same
    · rw [List.mem_singleton.mp oneNew] at real same ⊢
      rcases List.mem_append.mp twoListed with twoOld | twoNew
      · exact (first two twoOld real same.symm).symm
      · rw [List.mem_singleton.mp twoNew]

/-- Usernames with one id are the same. -/
theorem IdsNamed.idOf_inj {resolution : Resolution}
    (named : IdsNamed database resolution.ids) {first second : String}
    (real : resolution.idOf first ≠ 0)
    (same : resolution.idOf first = resolution.idOf second) :
    first = second := by
  have listed : ∀ name, resolution.idOf name ≠ 0 →
      (name, resolution.idOf name) ∈ resolution.ids := by
    intro name known
    unfold Resolution.idOf at known ⊢
    cases found : find? name resolution.ids with
    | none =>
        rw [found] at known
        exact absurd rfl known
    | some id => exact find?_mem found
  exact named.apart _ (listed first real) _
    (listed second (same ▸ real)) real same

end Ids

/-- The resolution lists what it has booked, and its ids belong to their
usernames. -/
def Resolving (s : Pipeline) : Prop :=
  ∀ resolution, s.loop = .resolving resolution →
    ∃ booked, resolution.Lists booked ∧
      IdsNamed s.host.database resolution.ids

theorem Resolving.of_same {s after : Pipeline} (held : Resolving s)
    (loop : ∀ resolution, after.loop = .resolving resolution →
      s.loop = .resolving resolution)
    (named : ∀ ids, IdsNamed s.host.database ids →
      IdsNamed after.host.database ids) : Resolving after := by
  intro resolution resolving
  obtain ⟨booked, lists, known⟩ :=
    held resolution (loop resolution resolving)
  exact ⟨booked, lists, named _ known⟩

/-- No resolution is under way behind the step. -/
theorem resolving_of_idle {s : Pipeline}
    (idle : ∀ resolution, s.loop ≠ .resolving resolution) : Resolving s :=
  fun resolution resolving => absurd resolving (idle resolution)

section Preservation

variable [Build] {options : Options} {s after : Pipeline}
variable {action : PipelineAction}

theorem Resolving.move (held : Resolving s) (balanced : Balanced s)
    (move : Move options s action after) : Resolving after := by
  cases move with
  | stay => exact held
  | store op choice =>
      have change := accountChange_handle s.host op choice
      exact held.of_same (fun _ resolving => resolving) fun _ named =>
        named.change change
  | reset id time failure database done =>
      have clears := clears_resetUsage done
      exact held.of_same (fun _ resolving => resolving) fun _ named =>
        named.of_accounts
          (by rw [accounts, accounts]; exact congrArg _ clears.users)
          clears.sequence
  | prune time failed =>
      exact held.of_same (fun _ resolving => resolving) fun _ named =>
        named.of_accounts rfl rfl
  | beginFlush | take | skip | keep | commit | restart =>
      exact resolving_of_idle fun _ resolving => (by cases resolving)
  | locate choice pending locating =>
      intro resolution resolving
      obtain rfl := LoopPhase.resolving.inj resolving
      exact ⟨[], ⟨rfl, by simp, rfl⟩, idsNamed_nil _⟩
  | resolve choice resolution delta rest id resolving next known =>
      obtain ⟨booked, lists, named⟩ := held resolution resolving
      intro other same
      obtain rfl := LoopPhase.resolving.inj same
      refine ⟨_, lists.charge next known, ?_⟩
      rw [resolution.charge_ids]
      exact named
  | learn choice resolution delta rest id resolving next new found =>
      obtain ⟨booked, lists, named⟩ := held resolution resolving
      have known : find? delta.username
          (resolution.know delta.username id).ids = some id := by
        rw [Resolution.know, find?_append, new]
        simp [find?]
      intro other same
      obtain rfl := LoopPhase.resolving.inj same
      refine ⟨_, (lists.know delta.username id).charge next known, ?_⟩
      rw [(resolution.know delta.username id).charge_ids]
      apply named.learn balanced.users
      rcases found with ⟨zero, -⟩ | ⟨row, listed, same⟩
      · exact .inl zero
      · obtain ⟨member, name⟩ := lookup_mem listed
        exact .inr ⟨row, member, name, same⟩
  | _ =>
      exact held.of_same (fun _ resolving => resolving) fun _ named => named

end Preservation

end Xoxproxy.Analytics
