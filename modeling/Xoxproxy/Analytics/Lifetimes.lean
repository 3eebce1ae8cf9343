import Xoxproxy.Analytics.ChargedOnce
import Xoxproxy.Analytics.Moments

/-!
# Traffic and the lives of accounts

Records carry usernames, and a username may pass from a deleted account to
a new one.  Every record is charged within the life of its account, as long
as no account takes a name under which records are still on their way.
-/

namespace Xoxproxy.Analytics

open AssociationMaps RowTables Transactions Tallies

/-- Every account was born once, and no dead one is there again. -/
structure Registered (s : Pipeline) : Prop where
  born : ∀ id ∈ s.host.database.users.map UserRow.id,
    ∃ moment, (id, moment) ∈ s.trace.births
  issued : ∀ birth ∈ s.trace.births,
    birth.1 ≤ s.host.database.userSequence
  births : (s.trace.births.map Prod.fst).Nodup
  gone : ∀ death ∈ s.trace.deaths,
    death.1 ∉ s.host.database.users.map UserRow.id ∧
      death.1 ≤ s.host.database.userSequence
  deaths : (s.trace.deaths.map Prod.fst).Nodup

theorem registered_initial (options : Options) :
    Registered (Pipeline.initial options) where
  born := fun _ listed => (by cases listed)
  issued := fun _ listed => (by cases listed)
  births := List.nodup_nil
  gone := fun _ listed => (by cases listed)
  deaths := List.nodup_nil

theorem Registered.of_same {s after : Pipeline} (registered : Registered s)
    (accounts : accounts after.host.database = accounts s.host.database)
    (sequence : after.host.database.userSequence =
      s.host.database.userSequence)
    (births : after.trace.births = s.trace.births)
    (deaths : after.trace.deaths = s.trace.deaths) :
    Registered after := by
  have ids := ids_of_accounts accounts
  refine ⟨?_, ?_, ?_, ?_, ?_⟩
  · rw [ids, births]
    exact registered.born
  · rw [births, sequence]
    exact registered.issued
  · rw [births]
    exact registered.births
  · rw [deaths, ids, sequence]
    exact registered.gone
  · rw [deaths]
    exact registered.deaths

theorem mem_ids_iff {database : Database} {id : Int} :
    id ∈ database.users.map UserRow.id ↔
      ∃ name, (id, name) ∈ accounts database := by
  rw [ids_eq_accounts]
  constructor
  · intro listed
    obtain ⟨account, there, rfl⟩ := List.mem_map.mp listed
    exact ⟨account.2, there⟩
  · rintro ⟨name, there⟩
    exact List.mem_map.mpr ⟨(id, name), there, rfl⟩

theorem account_unique {database : Database}
    (consistent : Consistent database) {first second : Int × String}
    (firstListed : first ∈ accounts database)
    (secondListed : second ∈ accounts database)
    (same : first.1 = second.1) : first = second := by
  have once : ((accounts database).map Prod.fst).Nodup := by
    rw [← ids_eq_accounts]
    exact consistent.ids
  exact List.inj_on_of_nodup_map once firstListed secondListed same

/-- An id is an old one, or new. -/
theorem AccountChange.ids_old {database changed : Database}
    (change : AccountChange database changed) {id : Int}
    (listed : id ∈ changed.users.map UserRow.id) :
    id ∈ database.users.map UserRow.id ∨ database.userSequence < id := by
  obtain ⟨name, there⟩ := mem_ids_iff.mp listed
  exact (change.accounts_old there).imp_left fun old =>
    mem_ids_iff.mpr ⟨name, old⟩

/-- The record was logged before its account was deleted. -/
def Trace.BeforeDeath (trace : Trace) (charge : Int × Posting) : Prop :=
  ∀ death ∈ trace.deaths, death.1 = charge.1 →
    trace.logged charge.2.entry < death.2

/-- The record was logged after its account was created. -/
def Trace.SinceBirth (trace : Trace) (charge : Int × Posting) : Prop :=
  ∃ birth ∈ trace.births, birth.1 = charge.1 ∧
    birth.2 ≤ trace.logged charge.2.entry

section Births

variable [Build]

/-- What is known of a charge in every run: its record is in the log, was
logged before its account was deleted, and has the account's name. -/
structure Owned (s : Pipeline) (charge : Int × Posting) : Prop where
  logged : charge.2.entry ∈ logEntries s.log
  issued : charge.1 ≤ s.host.database.userSequence
  alive : s.trace.BeforeDeath charge
  name : ∀ account ∈ accounts s.host.database, account.1 = charge.1 →
    account.2 = charge.2.entry.record.username


theorem Registered.store {s : Pipeline} (registered : Registered s)
    (consistent : Consistent s.host.database)
    (op : UserOp) (choice : UserChoice) :
    Registered (s.storeOp op choice) := by
  have change := accountChange_handle s.host op choice
  have behind := consistent.handle op choice
  have unseen : ∀ id ∈ (s.host.handle op choice).2.database.users.map
      UserRow.id, id ∉ s.host.database.users.map UserRow.id →
        s.host.database.userSequence < id :=
    fun id listed new => (change.ids_old listed).resolve_left new
  have later := change.sequence_le
  refine ⟨?_, ?_, ?_, ?_, ?_⟩
  · intro id listed
    change ∃ moment, (id, moment) ∈ s.trace.births ++ _
    by_cases old : id ∈ s.host.database.users.map UserRow.id
    · obtain ⟨moment, born⟩ := registered.born id old
      exact ⟨moment, List.mem_append_left _ born⟩
    · refine ⟨s.trace.now, List.mem_append_right _ ?_⟩
      exact List.mem_map.mpr
        ⟨id, List.mem_filter.mpr ⟨listed, decide_eq_true old⟩, rfl⟩
  · intro birth listed
    rcases List.mem_append.mp listed with old | new
    · exact (registered.issued birth old).trans later
    · obtain ⟨id, filtered, rfl⟩ := List.mem_map.mp new
      obtain ⟨row, there, rfl⟩ :=
        List.mem_map.mp (List.mem_filter.mp filtered).1
      exact (behind.issued row there).2
  · have shape : (s.storeOp op choice).trace.births.map Prod.fst =
        s.trace.births.map Prod.fst ++
          ((s.host.handle op choice).2.database.users.map
            UserRow.id).filter
              (· ∉ s.host.database.users.map UserRow.id) := by
      rw [Pipeline.storeOp, Trace.observe, List.map_append, List.map_map]
      congr 1
      exact List.map_id _
    rw [shape]
    refine registered.births.append (behind.ids.filter _) ?_
    intro id before now
    obtain ⟨birth, listed, rfl⟩ := List.mem_map.mp before
    obtain ⟨there, new⟩ := List.mem_filter.mp now
    have fresh := unseen _ there (of_decide_eq_true new)
    have issued := registered.issued birth listed
    omega
  · intro death listed
    rcases List.mem_append.mp listed with old | new
    · obtain ⟨absent, issued⟩ := registered.gone death old
      refine ⟨fun there => ?_, issued.trans later⟩
      have fresh := unseen _ there absent
      omega
    · obtain ⟨id, filtered, rfl⟩ := List.mem_map.mp new
      obtain ⟨there, absent⟩ := List.mem_filter.mp filtered
      obtain ⟨row, inUsers, rfl⟩ := List.mem_map.mp there
      exact ⟨of_decide_eq_true absent,
        ((consistent.issued row inUsers).2).trans later⟩
  · have shape : (s.storeOp op choice).trace.deaths.map Prod.fst =
        s.trace.deaths.map Prod.fst ++
          (s.host.database.users.map UserRow.id).filter
            (· ∉ (s.host.handle op choice).2.database.users.map
              UserRow.id) := by
      rw [Pipeline.storeOp, Trace.observe, List.map_append, List.map_map]
      congr 1
      exact List.map_id _
    rw [shape]
    refine registered.deaths.append (consistent.ids.filter _) ?_
    intro id before now
    obtain ⟨death, listed, rfl⟩ := List.mem_map.mp before
    exact (registered.gone death listed).1 (List.mem_filter.mp now).1

omit [Build] in
theorem add_births (trace : Trace) (entry : Entry) (slot : DestKey) :
    (trace.add entry slot).births = trace.births := by
  rw [trace.add_eq entry slot]

omit [Build] in
theorem add_deaths (trace : Trace) (entry : Entry) (slot : DestKey) :
    (trace.add entry slot).deaths = trace.deaths := by
  rw [trace.add_eq entry slot]

variable {options : Options} {start : Nat} {s after : Pipeline}
variable {action : PipelineAction}

theorem Registered.move (registered : Registered s)
    (consistent : Consistent s.host.database)
    (move : Move options s action after) : Registered after := by
  cases move with
  | store op choice => exact registered.store consistent op choice
  | reset id time failure database done =>
      have clears := clears_resetUsage done
      have same : accounts database = accounts s.host.database := by
        rw [accounts, accounts, clears.users]
      exact registered.of_same same clears.sequence rfl rfl
  | commit choice resolution database resolving finished done =>
      have books := (books_applyDeltas done).1
      exact registered.of_same books.accounts books.sequence rfl rfl
  | direct | receive =>
      exact registered.of_same rfl rfl (add_births _ _ _) (add_deaths _ _ _)
  | _ => exact registered.of_same rfl rfl rfl rfl

omit [Build] in
theorem accounts_change_subset {host : UserHost} (choice : UserChoice)
    {changed : Nat × Database}
    (fewer : accounts changed.2 ⊆ accounts host.database) :
    accounts (UserHost.change choice host changed).2.database ⊆
      accounts host.database := by
  rcases UserHost.change_cases choice host changed with
    ⟨error, failed⟩ | succeeded
  · rw [failed]
    exact List.Subset.refl _
  · rw [succeeded]
    exact fewer

omit [Build] in
theorem accounts_updated_subset {database : Database}
    {condition : UserRow → Bool} {change : UserRow → UserRow}
    (updates : Updates change) :
    accounts { database with
      users := updateWhere condition change database.users } ⊆
        accounts database := by
  rw [accounts_updateWhere updates.id updates.username]
  exact List.Subset.refl _

theorem accounts_handle_subset (host : UserHost) {op : UserOp}
    (choice : UserChoice)
    (other : ∀ user initial, op ≠ .createUser user initial) :
    accounts (host.handle op choice).2.database ⊆
      accounts host.database := by
  cases op with
  | createUser user initial => exact absurd rfl (other user initial)
  | updateUser user now =>
      have updates : Updates fun row : UserRow =>
          (row.writeUser user).touch now :=
        updates_touch (fun _ => rfl) (fun _ => rfl) fun _ => rfl
      exact accounts_change_subset choice (accounts_updated_subset updates)
  | setUserStatus id status version now =>
      have updates : Updates fun row : UserRow =>
          (row.writeStatus status).touch now :=
        updates_touch (fun _ => rfl) (fun _ => rfl) fun _ => rfl
      exact accounts_change_subset choice (accounts_updated_subset updates)
  | sweepExpired now =>
      have updates : Updates fun row : UserRow =>
          (row.writeStatus .expired).touch now :=
        updates_touch (fun _ => rfl) (fun _ => rfl) fun _ => rfl
      exact accounts_change_subset choice (accounts_updated_subset updates)
  | deleteUser id =>
      exact accounts_change_subset choice
        (List.map_subset _ fun _ kept => (mem_deleteWhere.mp kept).1)
  | rotateCredential id next version now =>
      rcases UserHost.transact_cases choice host
          (rotateStatements id next version now) with
        ⟨error, failed⟩ | ⟨after, succeeded, done⟩
      · rw [UserHost.handle, failed]
        exact List.Subset.refl _
      · rw [UserHost.handle, succeeded]
        obtain ⟨-, rfl⟩ := rotate_committed done
        exact accounts_updated_subset (updates_bump now)
  | _ => exact List.Subset.refl _

/-- An account that appears was created, and has the name it was given. -/
theorem new_account {host : UserHost} {op : UserOp} {choice : UserChoice}
    {account : Int × String}
    (listed : account ∈ accounts (host.handle op choice).2.database)
    (new : account ∉ accounts host.database) :
    ∃ user initial, op = .createUser user initial ∧
      (host.handle (.createUser user initial) choice).1.isOk = true ∧
      account.2 = user.username := by
  by_cases other : ∀ user initial, op ≠ .createUser user initial
  · exact absurd (accounts_handle_subset host choice other listed) new
  push Not at other
  obtain ⟨user, initial, rfl⟩ := other
  refine ⟨user, initial, rfl, ?_⟩
  rw [UserHost.handle] at listed ⊢
  rcases UserHost.transact_cases choice host
      (createUserStatements user initial) with
    ⟨error, failed⟩ | ⟨after, succeeded, done⟩
  · rw [failed] at listed
    exact absurd listed new
  · rw [succeeded] at listed ⊢
    obtain ⟨-, rfl⟩ := createUser_committed done
    refine ⟨rfl, ?_⟩
    have added : account ∈ accounts host.database ++
        [(host.database.userSequence + 1, user.username)] := by
      simpa [accounts, Database.insertCredential, insertedRow] using listed
    rcases List.mem_append.mp added with old | here
    · exact absurd old new
    · rw [List.mem_singleton.mp here]

/-- The name under which a step creates an account. -/
def Pipeline.creates (s : Pipeline) : PipelineAction → Option String
  | .store (.createUser user initial) choice =>
      if (s.host.handle (.createUser user initial) choice).1.isOk then
        some user.username
      else none
  | _ => none

/-- When an account is created no record under its name is still on its
way. -/
def BornApart (options : Options) (s : Pipeline)
    (action : PipelineAction) : Prop :=
  ∀ name ∈ s.creates action, ∀ entry ∈ s.onTheWay options,
    entry.record.username ≠ name

instance (options : Options) (s : Pipeline) (action : PipelineAction) :
    Decidable (BornApart options s action) :=
  inferInstanceAs (Decidable (∀ name ∈ s.creates action, _))

theorem marked_store {op : UserOp} {choice : UserChoice}
    (held : Cursored options start s) (clocked : Clocked s)
    (consistent : Consistent s.host.database)
    (apart : BornApart options s (.store op choice))
    (marked : Marked options s.trace.births s) :
    Marked options (s.storeOp op choice).trace.births
      (s.storeOp op choice).tick := by
  have move : Move options s (.store op choice) (s.storeOp op choice) :=
    .store op choice
  have change := accountChange_handle s.host op choice
  have behind := consistent.handle op choice
  have cursor : (s.storeOp op choice).cursor options = s.cursor options :=
    cursor_of_same change.cursor
  refine (marked.step held clocked move).append ⟨?_, ?_, ?_⟩
  · intro mark listed
    obtain ⟨id, filtered, rfl⟩ := List.mem_map.mp listed
    obtain ⟨row, there, rfl⟩ :=
      List.mem_map.mp (List.mem_filter.mp filtered).1
    exact (behind.issued row there).2
  · intro mark listed
    obtain ⟨id, -, rfl⟩ := List.mem_map.mp listed
    exact Nat.le_succ _
  · intro mark listed entry waits owner
    obtain ⟨id, filtered, rfl⟩ := List.mem_map.mp listed
    have fresh := of_decide_eq_true (List.mem_filter.mp filtered).2
    have new : (id, entry.record.username) ∉ accounts s.host.database :=
      fun old => fresh (mem_ids_iff.mpr ⟨_, old⟩)
    obtain ⟨user, initial, rfl, created, name⟩ := new_account owner new
    have creates : s.creates (.store (.createUser user initial) choice) =
        some user.username := if_pos created
    have same : (s.storeOp (.createUser user initial) choice).onTheWay
        options = s.onTheWay options := by
      rw [Pipeline.onTheWay, cursor]
      rfl
    exact absurd name (apart _ creates entry (same ▸ waits))

/-- Births are remembered as long as the accounts are born apart. -/
theorem marked_births (held : Cursored options start s)
    (clocked : Clocked s) (consistent : Consistent s.host.database)
    (apart : BornApart options s action)
    (move : Move options s action after)
    (marked : Marked options s.trace.births s) :
    Marked options after.trace.births after.tick := by
  have stays : after.trace.births = s.trace.births →
      Marked options after.trace.births after.tick := by
    intro same
    rw [same]
    exact marked.step held clocked move
  cases move with
  | store op choice =>
      exact marked_store held clocked consistent apart marked
  | direct | receive => exact stays (add_births _ _ _)
  | _ => exact stays rfl

/-! ## Charges within lives -/

theorem deaths_of_move (move : Move options s action after)
    {death : Int × Nat} (listed : death ∈ after.trace.deaths) :
    death ∈ s.trace.deaths ∨ death.2 = s.trace.now := by
  cases move with
  | store op choice =>
      refine (List.mem_append.mp listed).imp_right fun new => ?_
      obtain ⟨id, -, rfl⟩ := List.mem_map.mp new
      rfl
  | direct | receive =>
      rw [← add_deaths]
      exact .inl listed
  | _ => exact .inl listed

theorem births_subset (move : Move options s action after) :
    s.trace.births ⊆ after.trace.births := by
  cases move with
  | store op choice => exact List.subset_append_left _ _
  | direct | receive =>
      intro birth listed
      rw [← add_births] at listed
      exact listed
  | _ => exact List.Subset.refl _

theorem Owned.move {charge : Int × Posting} (owned : Owned s charge)
    (clocked : Clocked s) (move : Move options s action after) :
    Owned after charge := by
  obtain ⟨-, bytes, log, -⟩ := grown_of_move move
  have kept := clocked.logged_old move owned.logged
  refine ⟨?_, owned.issued.trans (sequence_of_move move), ?_, ?_⟩
  · rw [log]
    exact mem_logEntries_grow bytes owned.logged
  · intro death listed same
    rw [kept]
    rcases deaths_of_move move listed with old | now
    · exact owned.alive death old same
    · rw [now]
      exact clocked.logged_lt owned.logged
  · intro account listed same
    rcases accounts_of_move move listed with old | fresh
    · exact owned.name account old same
    · have issued := owned.issued
      omega

theorem Owned.tick {charge : Int × Posting} (owned : Owned s charge) :
    Owned s.tick charge :=
  ⟨owned.logged, owned.issued, owned.alive, owned.name⟩

/-- The records that a flush charges are on their way to accounts that are
there. -/
theorem charge_onTheWay (held : Cursored options start s)
    (resolves : Resolving s) {resolution : Resolution}
    {database : Database}
    (resolving : s.loop = .resolving resolution)
    (finished : resolution.remaining = [])
    (done : executeAll
      (applyDeltasStatements resolution.usage resolution.dests
        ⟨options.logPath, resolution.offset⟩) s.host.database =
          .ok database)
    {charge : Int × Posting}
    (listed : charge ∈ chargesOf resolution.idOf s.trace.batch) :
    (charge.1, charge.2.entry.record.username) ∈
        accounts s.host.database ∧
      charge.2.entry ∈ s.onTheWay options := by
  obtain ⟨account, batched⟩ := charge_owner held.accounts.charged resolves
    resolving finished done listed
  refine ⟨account, mem_onTheWay.mpr (.inl (mem_underway.mpr ?_))⟩
  exact .inr (.inr (.inr (.inl (List.mem_map_of_mem batched))))

/-- What holds of the accounts and the charges in every run. -/
structure Chronicle (options : Options) (s : Pipeline) : Prop where
  held : ∃ start, Cursored options start s ∧ Settled options start s
  clocked : Clocked s
  resolves : Resolving s
  registered : Registered s
  owned : ∀ charge ∈ s.trace.applied, Owned s charge

/-- A charge that is new is made by a flush, to an account that is there
and from a record that is on its way. -/
theorem Chronicle.charged (chronicle : Chronicle options s)
    (move : Move options s action after) {charge : Int × Posting}
    (listed : charge ∈ after.trace.applied) :
    charge ∈ s.trace.applied ∨
      (charge.1, charge.2.entry.record.username) ∈
          accounts after.host.database ∧
        charge.2.entry ∈ s.onTheWay options ∧
        accounts after.host.database = accounts s.host.database ∧
        after.trace.births = s.trace.births := by
  cases move with
  | commit choice resolution database resolving finished done =>
      refine (List.mem_append.mp listed).imp_right fun new => ?_
      obtain ⟨start, held, -⟩ := chronicle.held
      obtain ⟨account, waits⟩ := charge_onTheWay held chronicle.resolves
        resolving finished done new
      have same := (books_applyDeltas done).1.accounts
      exact ⟨same.symm ▸ account, waits, same, rfl⟩
  | direct | receive =>
      rw [← add_applied]
      exact .inl listed
  | _ => exact .inl listed

theorem Chronicle.move (chronicle : Chronicle options s)
    (move : Move options s action after) : Chronicle options after.tick := by
  obtain ⟨start, held, settled⟩ := chronicle.held
  have balanced := held.accounts.balanced
  have clocked := chronicle.clocked
  have registered := chronicle.registered.move balanced.users move
  have resolves := chronicle.resolves.move balanced move
  have next := (Kept.move ⟨start, held, settled⟩ move).tick
  refine ⟨next, clocked.step move, ?_, ?_, ?_⟩
  · exact resolves.of_same (fun _ resolving => resolving)
      fun _ named => named
  · exact registered.of_same rfl rfl rfl rfl
  intro charge listed
  refine Owned.tick ?_
  rcases chronicle.charged move listed with
    old | ⟨account, waits, -⟩
  · exact (chronicle.owned charge old).move clocked move
  have there := mem_ids_iff.mpr ⟨_, account⟩
  obtain ⟨-, bytes, log, -⟩ := grown_of_move move
  obtain ⟨moment, born⟩ := registered.born _ there
  refine ⟨?_, registered.issued _ born, ?_, ?_⟩
  · rw [log]
    exact mem_logEntries_grow bytes (held.logged_onTheWay waits)
  · -- The dead are not there.
    intro death dead same
    refine absurd there ?_
    rw [← same]
    exact (registered.gone death dead).1
  · intro other listed same
    obtain ⟨later, goes, -⟩ := next
    exact congrArg Prod.snd
      (account_unique goes.accounts.balanced.users listed account same)

theorem chronicle_initial (options : Options) :
    Chronicle options (Pipeline.initial options) where
  held := kept_initial options
  clocked := clocked_initial options
  resolves := resolving_of_idle fun _ resolving => (by cases resolving)
  registered := registered_initial options
  owned := fun _ listed => (by cases listed)

/-- What holds as long as the accounts are born apart. -/
structure Apart (options : Options) (s : Pipeline) : Prop where
  chronicle : Chronicle options s
  marked : Marked options s.trace.births s
  charges : ∀ charge ∈ s.trace.applied, s.trace.SinceBirth charge

theorem Apart.move (held : Apart options s)
    (apart : BornApart options s action)
    (move : Move options s action after) : Apart options after.tick := by
  have chronicle := held.chronicle
  obtain ⟨start, cursored, settled⟩ := chronicle.held
  have balanced := cursored.accounts.balanced
  have clocked := chronicle.clocked
  refine ⟨chronicle.move move, ?_, ?_⟩
  · exact marked_births cursored clocked balanced.users apart move
      held.marked
  intro charge listed
  rcases chronicle.charged move listed with
    old | ⟨account, waits, accounts, births⟩
  · obtain ⟨birth, born, same, early⟩ := held.charges charge old
    refine ⟨birth, births_subset move born, same, early.trans ?_⟩
    exact (clocked.logged_old move (chronicle.owned charge old).logged).ge
  · rw [accounts] at account
    obtain ⟨moment, born⟩ :=
      chronicle.registered.born _ (mem_ids_iff.mpr ⟨_, account⟩)
    refine ⟨(charge.1, moment), births.symm ▸ born, rfl, ?_⟩
    have early := held.marked.waits _ born _ waits account
    exact early.trans
      (clocked.logged_old move (cursored.logged_onTheWay waits)).ge

theorem apart_initial (options : Options) :
    Apart options (Pipeline.initial options) where
  chronicle := chronicle_initial options
  marked := marked_nil options _
  charges := fun _ listed => (by cases listed)

theorem apart_run {actions : List PipelineAction}
    (apart : Runs.Meets (Pipeline.step options) (BornApart options) actions
      (Pipeline.initial options)) :
    Apart options (Runs.run (Pipeline.step options) actions
      (Pipeline.initial options)) :=
  Runs.invariant_of_meets (fun _ _ here born => here.move born (move_act _))
    (apart_initial options) apart

/-- Traffic stays with its account: no id is given twice, every charge
falls within the life of its account and bears its name, and as long as the
figures of the log stay in range, the rows amount to charges. -/
structure WithinLives (s : Pipeline) : Prop where
  births : (s.trace.births.map Prod.fst).Nodup
  deaths : (s.trace.deaths.map Prod.fst).Nodup
  since : ∀ charge ∈ s.trace.applied, s.trace.SinceBirth charge
  before : ∀ charge ∈ s.trace.applied, s.trace.BeforeDeath charge
  names : ∀ charge ∈ s.trace.applied,
    ∀ account ∈ accounts s.host.database, account.1 = charge.1 →
      account.2 = charge.2.entry.record.username
  rows : s.trace.ledger.Sublist (s.trace.applied.flatMap chargeRows)
  amounts : LogFits s.log → ∀ key, amountAt s.host.database key =
    tally (ledgerBookings s.trace.ledger) key
  counters : LogFits s.log → CountersFit s

/-- Records are charged within the lives of their accounts, whatever is
deleted, created and written meanwhile, in every run in which no account
takes a name under which records are still on their way. -/
theorem charged_within_lives (options : Options)
    (actions : List PipelineAction)
    (apart : Runs.Meets (Pipeline.step options) (BornApart options) actions
      (Pipeline.initial options)) :
    WithinLives (Runs.run (Pipeline.step options) actions
      (Pipeline.initial options)) := by
  have held := apart_run apart
  have chronicle := held.chronicle
  have kept := Kept.neverAhead chronicle.held
  exact {
    births := chronicle.registered.births
    deaths := chronicle.registered.deaths
    since := held.charges
    before := fun charge listed => (chronicle.owned charge listed).alive
    names := fun charge listed => (chronicle.owned charge listed).name
    rows := kept.rows
    amounts := kept.amounts
    counters := kept.counters }

/-- Traffic is an account's own: no id is given to two accounts, every
charge was logged between the creation and the deletion of its account, and
a step adds to the rows of an account what it charges to it. -/
structure OwnTraffic (options : Options) (s : Pipeline) : Prop where
  births : (s.trace.births.map Prod.fst).Nodup
  deaths : (s.trace.deaths.map Prod.fst).Nodup
  since : ∀ charge ∈ s.trace.applied, s.trace.SinceBirth charge
  before : ∀ charge ∈ s.trace.applied, s.trace.BeforeDeath charge
  enters : LogFits s.log → ∀ action, ∃ charges,
    Enters s action (Pipeline.step options action s) charges

/-- Traffic is never charged to another account as long as no account is
created under a name whose records are still on their way. -/
theorem own_traffic_only (options : Options)
    (actions : List PipelineAction)
    (apart : Runs.Meets (Pipeline.step options) (BornApart options) actions
      (Pipeline.initial options)) :
    OwnTraffic options (Runs.run (Pipeline.step options) actions
      (Pipeline.initial options)) := by
  have held := apart_run apart
  have chronicle := held.chronicle
  have kept : Kept options (Runs.run (Pipeline.step options) actions
    (Pipeline.initial options)) := chronicle.held
  exact {
    births := chronicle.registered.births
    deaths := chronicle.registered.deaths
    since := held.charges
    before := fun charge listed => (chronicle.owned charge listed).alive
    enters := fun _ => kept.enters }

end Births

/-- A name that is given to a second account, once the traffic of the first
one is charged. -/
def renewedName : List PipelineAction :=
  let used := createAccount "alice" ::
    .append (bytesOf (connectionLine "alice" "a.example")) ::
      tailerPass 1 ++ flushPass 1 1
  used ++ .store (.deleteUser 1) (calmAt 0) :: used

theorem renewedName_apart :
    Runs.Meets (@Pipeline.step Build.dev sampleOptions)
        (@BornApart Build.dev sampleOptions) renewedName
        (Pipeline.initial sampleOptions) ∧
      @LogFits Build.dev (Runs.run
        (@Pipeline.step Build.dev sampleOptions) renewedName
          (Pipeline.initial sampleOptions)).log := by
  decide +kernel

theorem charged_within_lives_of_renewed :
    let s := Runs.run (@Pipeline.step Build.dev sampleOptions) renewedName
      (Pipeline.initial sampleOptions)
    @LogFits Build.dev s.log ∧ @WithinLives Build.dev s :=
  ⟨renewedName_apart.2,
    @charged_within_lives Build.dev sampleOptions renewedName
      renewedName_apart.1⟩

theorem own_traffic_of_renewed :
    @OwnTraffic Build.dev sampleOptions
      (Runs.run (@Pipeline.step Build.dev sampleOptions) renewedName
        (Pipeline.initial sampleOptions)) :=
  @own_traffic_only Build.dev sampleOptions renewedName renewedName_apart.1

/-- The first account's traffic still waits in the queue when another one
takes its name. -/
def inheritedTraffic : List PipelineAction :=
  [createAccount "alice",
    .append (bytesOf (connectionLine "alice" "a.example"))] ++
    tailerPass 1 ++
    [.store (.deleteUser 1) (calmAt 0), createAccount "alice"] ++
    flushPass 1 1

/-- The state in which that ends. -/
def inherited : Pipeline :=
  Runs.run (@Pipeline.step Build.dev sampleOptions) inheritedTraffic
    (Pipeline.initial sampleOptions)

theorem inherited_before_birth :
    ∃ charge ∈ inherited.trace.applied, ∀ birth ∈ inherited.trace.births,
      birth.1 = charge.1 → inherited.trace.logged charge.2.entry < birth.2 := by
  decide +kernel

/-- The second account pays for what was logged before it was there. -/
theorem renewed_account_inherits :
    ¬ ∀ actions, @OwnTraffic Build.dev sampleOptions
      (Runs.run (@Pipeline.step Build.dev sampleOptions) actions
        (Pipeline.initial sampleOptions)) := by
  intro always
  have since := @OwnTraffic.since Build.dev _ _ (always inheritedTraffic)
  obtain ⟨charge, applied, early⟩ := inherited_before_birth
  obtain ⟨birth, born, same, late⟩ := since charge applied
  exact absurd (early birth born same) (Nat.not_lt.mpr late)

end Xoxproxy.Analytics
