import Xoxproxy.Analytics.Ledger
import Xoxproxy.Store.DestinationQueries

/-!
# What the destination reports say

Whether the figures of a destination are those of the user it is shown
with, and whether the two panels of the dashboard show the same figures.
-/

namespace Xoxproxy

open RowTables
open Analytics (Counters destinationRowCounters)

instance Analytics.Counters.isLeftCancelAdd : IsLeftCancelAdd Counters where
  add_left_cancel first second third same := by
    have requests := congrArg Counters.requests same
    have blocked := congrArg Counters.blocked same
    have bytesIn := congrArg Counters.bytesIn same
    have bytesOut := congrArg Counters.bytesOut same
    simp only [Counters.add_requests, Counters.add_blocked,
      Counters.add_bytesIn, Counters.add_bytesOut, Int.add_right_inj]
      at requests blocked bytesIn bytesOut
    exact Counters.ext requests blocked bytesIn bytesOut

/-- What some rows amount to. -/
def figuresOf (rows : List UserDestination) : Counters :=
  (rows.map fun row => destinationRowCounters row.2).sum

/-- The four figures of a destination. -/
def DestinationTotal.figures (total : DestinationTotal) : Counters where
  requests := total.requests
  blocked := total.blocked
  bytesIn := total.bytesIn
  bytesOut := total.bytesOut

def DestinationStat.figures (stat : DestinationStat) : Counters where
  requests := stat.requests
  blocked := stat.blocked
  bytesIn := stat.bytesIn
  bytesOut := stat.bytesOut

def DestinationStat.target (stat : DestinationStat) :
    String × Int × String :=
  (stat.host, stat.port, stat.protocol)

theorem figures_destinationAgg (target : String × Int × String)
    (group : List UserDestination) :
    (destinationAgg target group).figures = figuresOf group := by
  unfold figuresOf
  induction group with
  | nil => rfl
  | cons row group inductionHypothesis =>
      rw [List.map_cons, List.sum_cons, ← inductionHypothesis]
      rfl

theorem figuresOf_perm {rows others : List UserDestination}
    (reordered : rows.Perm others) : figuresOf rows = figuresOf others :=
  (reordered.map _).sum_eq

theorem scanDestination_ok [Build] {total : DestinationTotal}
    {stat : DestinationStat} (read : scanDestination total = .ok stat) :
    stat.username = total.username ∧
      stat.target = (total.host, total.port, total.protocol) ∧
      stat.figures = total.figures := by
  unfold scanDestination at read
  cases stamp : parseTime total.lastSeen with
  | error error =>
      rw [stamp] at read
      cases read
  | ok time =>
      rw [stamp] at read
      obtain rfl := Except.ok.inj read
      exact ⟨rfl, rfl, rfl⟩

/-- The figures of a destination are sums over rows of the user that it
names. -/
def CreditsItsUser (rows : List UserDestination) (stat : DestinationStat) :
    Prop :=
  stat.figures = figuresOf (rows.filter fun row =>
    decide (row.1.username = stat.username) &&
      decide (row.target = stat.target))

/-- The row is the one that names its destination in some order of the
visit in which no sum overflows. -/
def Naming (rows : List UserDestination) (row : UserDestination) : Prop :=
  ∃ order : VisitOrder UserDestination,
    sumsFit (order.visit rows) = true ∧
      latestRow UserDestination.lastSeen
        (ofTarget (order.visit rows) row) = some row

theorem Naming.latest {rows : List UserDestination} {row : UserDestination}
    (naming : Naming rows row) : LatestOfTarget rows row := by
  obtain ⟨order, -, found⟩ := naming
  exact (isLatest_of_latestRow found).perm (ofTarget_visit order rows row)

/-- Without negative figures, every latest row names its destination in
some order. -/
theorem naming_iff_latest {rows : List UserDestination}
    (nonneg : NoneNegative rows) (fit : sumsFit rows = true)
    {row : UserDestination} :
    Naming rows row ↔ LatestOfTarget rows row :=
  ⟨Naming.latest, fun isLatest => ⟨.first row,
    sumsFit_visit nonneg fit _, exists_visit_latest isLatest⟩⟩

/-- The rows of a destination that are not the user's of the row that
names it add up to nothing. -/
def UsersApart (rows : List UserDestination) : Prop :=
  ∀ row, Naming rows row →
    figuresOf ((ofTarget rows row).filter fun other =>
      !decide (other.1.username = row.1.username)) = 0

/-- The figures of some rows, one by one. -/
theorem figuresOf_eq (rows : List UserDestination) :
    figuresOf rows =
      { requests := (rows.map fun row => row.2.requests).sum
        blocked := (rows.map fun row => row.2.blocked).sum
        bytesIn := (rows.map fun row => row.2.bytesIn).sum
        bytesOut := (rows.map fun row => row.2.bytesOut).sum } :=
  (figures_destinationAgg ("", 0, "") rows).symm

/-- Rows with requests amount to something. -/
theorem eq_nil_of_figuresOf {rows : List UserDestination}
    (positive : ∀ row ∈ rows, 0 < row.2.requests)
    (nothing : figuresOf rows = 0) : rows = [] := by
  have requests := congrArg Counters.requests (figuresOf_eq rows)
  rw [nothing] at requests
  change 0 = (rows.map fun row => row.2.requests).sum at requests
  cases rows with
  | nil => rfl
  | cons row rows =>
      have first := positive row List.mem_cons_self
      have rest : 0 ≤ (rows.map fun row => row.2.requests).sum := by
        apply List.sum_nonneg
        intro count listed
        obtain ⟨other, member, rfl⟩ := List.mem_map.mp listed
        exact (positive other (List.mem_cons_of_mem row member)).le
      rw [List.map_cons, List.sum_cons] at requests
      omega

/-- With requests in every row, users are apart exactly if no destination
has rows of two users. -/
theorem usersApart_iff_sole {rows : List UserDestination}
    (positive : ∀ row ∈ rows, 0 < row.2.requests)
    {order : VisitOrder UserDestination}
    (fit : sumsFit (order.visit rows) = true) :
    UsersApart rows ↔ ∀ first ∈ rows, ∀ second ∈ rows,
      first.target = second.target →
        first.1.username = second.1.username := by
  constructor
  · intro apart first firstListed second secondListed same
    obtain ⟨latest, found⟩ := @latestRow_isSome _ _ _
      UserDestination.lastSeen (ofTarget (order.visit rows) first) first
      ((ofTarget_visit order rows first).mem_iff.mpr
        (mem_ofTarget.mpr ⟨firstListed, rfl⟩))
    have target : latest.target = first.target :=
      (mem_ofTarget.mp (isLatest_of_latestRow found).listed).2
    have naming : Naming rows latest := by
      refine ⟨order, fit, ?_⟩
      rw [ofTarget_congr _ target]
      exact found
    have none := eq_nil_of_figuresOf (fun row listed =>
      positive row (mem_ofTarget.mp (List.mem_filter.mp listed).1).1)
      (apart latest naming)
    have named : ∀ row ∈ rows, row.target = first.target →
        row.1.username = latest.1.username := by
      intro row listed ofFirst
      have kept := List.filter_eq_nil_iff.mp none row
        (mem_ofTarget.mpr ⟨listed, ofFirst.trans target.symm⟩)
      simpa using kept
    exact (named first firstListed rfl).trans
      (named second secondListed same.symm).symm
  · intro sole row naming
    have none : (ofTarget rows row).filter (fun other =>
        !decide (other.1.username = row.1.username)) = [] := by
      rw [List.filter_eq_nil_iff]
      intro other listed
      obtain ⟨member, target⟩ := mem_ofTarget.mp listed
      have same := sole other member row
        (mem_ofTarget.mp naming.latest.listed).1 target
      simp [same]
    rw [none]
    rfl

section Report

variable [Build] {database : Database}
variable {selects : DestinationRow → Bool}
variable {rank : DestinationTotal → Int} {limit : Int}

/-- Every row of an answer stands for a destination selected, under the
name of one of its rows. -/
theorem mem_report {order : VisitOrder UserDestination}
    (untruncated : Untruncated limit
      (targetCount (database.selectDestinations selects)))
    {stats : List DestinationStat}
    (done :
      database.reportDestinations order selects rank limit = .ok stats)
    {stat : DestinationStat} (member : stat ∈ stats) :
    ∃ row, Naming (database.selectDestinations selects) row ∧
      stat.username = row.1.username ∧ stat.target = row.target ∧
      stat.figures =
        figuresOf (ofTarget (database.selectDestinations selects) row) := by
  obtain ⟨fit, scanned⟩ := reportDestinations_ok_iff.mp done
  obtain ⟨total, listed, read⟩ := mem_of_readAll scanned member
  obtain ⟨row, selected, rfl⟩ := (mem_groupDestinations untruncated).mp listed
  have visited := ofTarget_visit order
    (database.selectDestinations selects) row
  obtain ⟨latest, found⟩ := @latestRow_isSome _ _ _
    UserDestination.lastSeen _ row
    (visited.mem_iff.mpr (mem_ofTarget.mpr ⟨selected, rfl⟩))
  have same : latest.target = row.target :=
    (mem_ofTarget.mp (isLatest_of_latestRow found).listed).2
  obtain ⟨named, target, figures⟩ := scanDestination_ok read
  refine ⟨latest, ⟨order, fit, ?_⟩, named.trans ?_, target.trans same.symm,
    ?_⟩
  · rw [ofTarget_congr _ same]
    exact found
  · simp [destinationAgg, found]
  · rw [figures, figures_destinationAgg, figuresOf_perm visited,
      ofTarget_congr _ same]

/-- The row that names a destination in some order is shown in it. -/
theorem exists_report
    (untruncated : Untruncated limit
      (targetCount (database.selectDestinations selects)))
    (reads : StampsRead (database.selectDestinations selects))
    {row : UserDestination}
    (naming : Naming (database.selectDestinations selects) row) :
    ∃ order stats,
      database.reportDestinations order selects rank limit = .ok stats ∧
      ∃ stat ∈ stats, stat.username = row.1.username ∧
        stat.target = row.target ∧ stat.figures =
          figuresOf (ofTarget (database.selectDestinations selects) row) := by
  have selected := (mem_ofTarget.mp naming.latest.listed).1
  obtain ⟨order, fit, found⟩ := naming
  have answered : ∃ stats, readAll scanDestination
      (database.groupDestinations order selects rank limit) = .ok stats :=
    (groupDestinations_read_iff untruncated).mpr reads
  obtain ⟨stats, scanned⟩ := answered
  refine ⟨order, stats,
    reportDestinations_ok_iff.mpr ⟨fit, scanned⟩, ?_⟩
  obtain ⟨stat, member, read⟩ := mem_readAll scanned
    ((mem_groupDestinations untruncated).mpr ⟨row, selected, rfl⟩)
  obtain ⟨named, target, figures⟩ := scanDestination_ok read
  refine ⟨stat, member, ?_, target, ?_⟩
  · rw [named, destinationAgg, found]
    rfl
  · rw [figures, figures_destinationAgg,
      figuresOf_perm (ofTarget_visit _ _ row)]

/-- An answer has every destination selected. -/
theorem report_covers {order : VisitOrder UserDestination}
    (untruncated : Untruncated limit
      (targetCount (database.selectDestinations selects)))
    {stats : List DestinationStat}
    (done :
      database.reportDestinations order selects rank limit = .ok stats)
    {row : UserDestination}
    (selected : row ∈ database.selectDestinations selects) :
    ∃ stat ∈ stats, stat.target = row.target ∧ stat.figures =
      figuresOf (ofTarget (database.selectDestinations selects) row) := by
  obtain ⟨-, scanned⟩ := reportDestinations_ok_iff.mp done
  obtain ⟨stat, member, read⟩ := mem_readAll scanned
    ((mem_groupDestinations untruncated).mpr ⟨row, selected, rfl⟩)
  obtain ⟨-, target, figures⟩ := scanDestination_ok read
  refine ⟨stat, member, target, ?_⟩
  rw [figures, figures_destinationAgg,
    figuresOf_perm (ofTarget_visit order _ row)]

/-- What it takes for a report to credit every user with its own
traffic only. -/
theorem report_credits_iff
    (untruncated : Untruncated limit
      (targetCount (database.selectDestinations selects))) :
    (∀ order stats,
        database.reportDestinations order selects rank limit = .ok stats →
      ∀ stat ∈ stats,
        CreditsItsUser (database.selectDestinations selects) stat) ↔
      (StampsRead (database.selectDestinations selects) →
        UsersApart (database.selectDestinations selects)) := by
  have own : ∀ row username, figuresOf ((ofTarget
      (database.selectDestinations selects) row).filter fun other =>
        decide (other.1.username = username)) =
      figuresOf ((database.selectDestinations selects).filter fun other =>
        decide (other.1.username = username) &&
          decide (other.target = row.target)) := by
    intro row username
    rw [ofTarget, rowsOf, List.filter_filter]
  constructor
  · intro credits reads row naming
    obtain ⟨order, stats, done, stat, member, named, target, figures⟩ :=
      @exists_report _ _ _ rank _ untruncated reads _ naming
    have credited := credits order stats done stat member
    rw [CreditsItsUser, named, target, figures, ← own] at credited
    exact (sum_eq_sum_filter_iff _ _ _).mp credited
  · intro apart order stats done stat member
    obtain ⟨reads, -⟩ := Answerable.of_report untruncated done
    obtain ⟨row, naming, named, target, figures⟩ :=
      mem_report untruncated done member
    have alone := apart reads row naming
    rw [CreditsItsUser, named, target, figures, ← own]
    exact (sum_eq_sum_filter_iff _ _ _).mpr alone

end Report

/-! ## Both reports -/

section Reports

variable (database : Database) (sinceDay : String)
variable (topLimit blockedLimit : Int)

/-- The rows behind `ListTopDestinations`. -/
def Database.topRows : List UserDestination :=
  database.selectDestinations fun row => row.since sinceDay

/-- The rows behind `ListBlockedDestinations`. -/
def Database.blockedRows : List UserDestination :=
  database.selectDestinations fun row => row.blockedSince sinceDay

theorem blockedRows_eq_filter :
    database.blockedRows sinceDay =
      (database.topRows sinceDay).filter fun row =>
        decide (0 < row.2.blocked) := by
  unfold Database.blockedRows Database.topRows Database.selectDestinations
  rw [List.filter_filter]
  apply List.filter_congr
  intro row _
  exact Bool.and_comm _ _

theorem mem_blockedRows {database : Database} {sinceDay : String}
    {row : UserDestination} :
    row ∈ database.blockedRows sinceDay ↔
      row ∈ database.topRows sinceDay ∧ 0 < row.2.blocked := by
  rw [blockedRows_eq_filter, List.mem_filter, decide_eq_true_iff]

theorem ofTarget_blockedRows (row : UserDestination) :
    ofTarget (database.blockedRows sinceDay) row =
      (ofTarget (database.topRows sinceDay) row).filter fun other =>
        decide (0 < other.2.blocked) := by
  rw [blockedRows_eq_filter, ofTarget, ofTarget, rowsOf, rowsOf,
    List.filter_filter, List.filter_filter]
  apply List.filter_congr
  intro other _
  exact Bool.and_comm _ _

theorem figures_blocked_iff (row : UserDestination) :
    figuresOf (ofTarget (database.topRows sinceDay) row) =
        figuresOf (ofTarget (database.blockedRows sinceDay) row) ↔
      figuresOf ((ofTarget (database.topRows sinceDay) row).filter
        fun other => !decide (0 < other.2.blocked)) = 0 := by
  rw [ofTarget_blockedRows]
  exact sum_eq_sum_filter_iff _ _ _

/-- Every row of the blocked panel counts blocked requests. -/
theorem blocked_figures_pos {row : UserDestination}
    (listed : row ∈ database.blockedRows sinceDay) :
    0 < (figuresOf (ofTarget (database.blockedRows sinceDay) row)).blocked := by
  have positive : ∀ other ∈ ofTarget (database.blockedRows sinceDay) row,
      0 < other.2.blocked := by
    intro other member
    rw [ofTarget_blockedRows] at member
    simpa using (List.mem_filter.mp member).2
  rw [figuresOf_eq]
  apply List.sum_pos
  · intro count member
    obtain ⟨other, here, rfl⟩ := List.mem_map.mp member
    exact positive other here
  · exact List.ne_nil_of_mem
      (List.mem_map_of_mem (mem_ofTarget.mpr ⟨listed, rfl⟩))

/-- A destination with blocked requests has a row with some. -/
theorem exists_blockedRow {row : UserDestination}
    (positive : 0 <
      (figuresOf (ofTarget (database.topRows sinceDay) row)).blocked) :
    ∃ other ∈ database.blockedRows sinceDay, other.target = row.target := by
  by_contra none
  have unblocked : ∀ count ∈ (ofTarget (database.topRows sinceDay) row).map
      (fun other => other.2.blocked), count ≤ 0 := by
    intro count member
    obtain ⟨other, here, rfl⟩ := List.mem_map.mp member
    obtain ⟨listed, target⟩ := mem_ofTarget.mp here
    by_contra some
    apply none
    refine ⟨other, ?_, target⟩
    rw [blockedRows_eq_filter]
    exact List.mem_filter.mpr ⟨listed, by simpa using some⟩
  have total := List.sum_le_card_nsmul _ _ unblocked
  rw [nsmul_zero] at total
  rw [figuresOf_eq] at positive
  exact absurd total (not_le.mpr positive)

variable [Build]

/-- Both reports credit every user with its own traffic only. -/
structure ReportsCredit : Prop where
  top : ∀ order stats,
    database.listTopDestinations order sinceDay topLimit = .ok stats →
      ∀ stat ∈ stats, CreditsItsUser (database.topRows sinceDay) stat
  blocked : ∀ order stats,
    database.listBlockedDestinations order sinceDay blockedLimit =
        .ok stats →
      ∀ stat ∈ stats, CreditsItsUser (database.blockedRows sinceDay) stat

/-- The blocked destinations are the top destinations with blocked
requests, with the same figures. -/
structure PanelsAgree (top blocked : List DestinationStat) : Prop where
  targets : ∀ target, (∃ stat ∈ blocked, stat.target = target) ↔
    ∃ stat ∈ top, stat.target = target ∧ 0 < stat.blocked
  figures : ∀ stat ∈ blocked, ∀ whole ∈ top, whole.target = stat.target →
    stat.figures = whole.figures

/-- The rows without blocked requests of a destination that has some add
up to nothing. -/
def BlockedApart (rows : List UserDestination) : Prop :=
  ∀ row ∈ rows, 0 < row.2.blocked →
    figuresOf ((ofTarget rows row).filter fun other =>
      !decide (0 < other.2.blocked)) = 0

section Panels

variable {database sinceDay topLimit blockedLimit}
variable {order other : VisitOrder UserDestination}
variable {top blocked : List DestinationStat}

omit [Build] in
/-- A destination with blocked requests shows the same figures in both
panels. -/
theorem BlockedApart.figures_eq
    (apart : BlockedApart (database.topRows sinceDay))
    {row : UserDestination} (listed : row ∈ database.blockedRows sinceDay) :
    figuresOf (ofTarget (database.topRows sinceDay) row) =
      figuresOf (ofTarget (database.blockedRows sinceDay) row) := by
  obtain ⟨inWindow, hasBlocked⟩ := mem_blockedRows.mp listed
  exact (figures_blocked_iff database sinceDay row).mpr
    (apart row inWindow hasBlocked)

variable (topUntruncated : Untruncated topLimit
  (targetCount (database.topRows sinceDay)))
variable (blockedUntruncated : Untruncated blockedLimit
  (targetCount (database.blockedRows sinceDay)))
variable (topDone :
  database.listTopDestinations order sinceDay topLimit = .ok top)
variable (blockedDone :
  database.listBlockedDestinations other sinceDay blockedLimit = .ok blocked)

include topUntruncated blockedUntruncated topDone blockedDone

theorem BlockedApart.panels
    (apart : BlockedApart (database.topRows sinceDay)) :
    PanelsAgree top blocked where
  targets := by
    intro target
    constructor
    · rintro ⟨stat, statListed, rfl⟩
      obtain ⟨row, naming, -, statTarget, -⟩ :=
        mem_report blockedUntruncated blockedDone statListed
      have listed := (mem_ofTarget.mp naming.latest.listed).1
      obtain ⟨whole, wholeListed, wholeTarget, wholeFigures⟩ :=
        report_covers topUntruncated topDone (mem_blockedRows.mp listed).1
      refine ⟨whole, wholeListed, wholeTarget.trans statTarget.symm, ?_⟩
      have figures := wholeFigures.trans (apart.figures_eq listed)
      have positive := blocked_figures_pos database sinceDay listed
      rw [← figures] at positive
      exact positive
    · rintro ⟨whole, wholeListed, rfl, hasBlocked⟩
      obtain ⟨row, -, -, wholeTarget, wholeFigures⟩ :=
        mem_report topUntruncated topDone wholeListed
      have positive : 0 < whole.figures.blocked := hasBlocked
      rw [wholeFigures] at positive
      obtain ⟨blockedRow, listed, blockedTarget⟩ :=
        exists_blockedRow database sinceDay positive
      obtain ⟨stat, statListed, statTarget, -⟩ :=
        report_covers blockedUntruncated blockedDone listed
      exact ⟨stat, statListed,
        statTarget.trans (blockedTarget.trans wholeTarget.symm)⟩
  figures := by
    intro stat statListed whole wholeListed targets
    obtain ⟨row, naming, -, statTarget, statFigures⟩ :=
      mem_report blockedUntruncated blockedDone statListed
    obtain ⟨wholeRow, -, -, wholeTarget, wholeFigures⟩ :=
      mem_report topUntruncated topDone wholeListed
    have target : wholeRow.target = row.target :=
      wholeTarget.symm.trans (targets.trans statTarget)
    have listed := (mem_ofTarget.mp naming.latest.listed).1
    have figures := apart.figures_eq listed
    rw [statFigures, wholeFigures]
    exact figures.symm.trans
      (congrArg figuresOf (ofTarget_congr _ target).symm)

/-- Panels that agree show the same figures for every blocked row's
destination. -/
theorem PanelsAgree.apart (panels : PanelsAgree top blocked) :
    BlockedApart (database.topRows sinceDay) := by
  intro row listed hasBlocked
  obtain ⟨whole, wholeListed, wholeTarget, wholeFigures⟩ :=
    report_covers topUntruncated topDone listed
  obtain ⟨stat, statListed, statTarget, statFigures⟩ :=
    report_covers blockedUntruncated blockedDone
      (mem_blockedRows.mpr ⟨listed, hasBlocked⟩)
  have same := panels.figures stat statListed whole wholeListed
    (wholeTarget.trans statTarget.symm)
  rw [← figures_blocked_iff]
  exact wholeFigures.symm.trans (same.symm.trans statFigures)

end Panels

end Reports

/-! ## A destination of two users -/

def namedAccount (id : Int) (username : String) : UserRow where
  id := id
  serverID := "default"
  username := username
  status := .active
  allowedProtocols := "http,socks5"
  downloadBPS := 0
  uploadBPS := 0
  maxConnections := 0
  quotaBytesDaily := 0
  quotaBytesMonthly := 0
  expiresAt := none
  version := 1
  createdAt := "2026-09-01T00:00:00Z"
  updatedAt := "2026-09-01T00:00:00Z"
  lastSeenAt := none

def aliceVisit : UserDestination :=
  (namedAccount 1 "alice",
    { userID := 1
      day := "2026-09-13"
      host := "example.com"
      port := 443
      protocol := "https"
      requests := 5
      blocked := 0
      bytesIn := 1000
      bytesOut := 100
      lastSeen := "2026-09-13T12:00:00Z" })

def bobVisit : UserDestination :=
  (namedAccount 2 "bob",
    { userID := 2
      day := "2026-09-14"
      host := "example.com"
      port := 443
      protocol := "https"
      requests := 2
      blocked := 1
      bytesIn := 10
      bytesOut := 1
      lastSeen := "2026-09-14T12:00:00Z" })

/-- One host that two users have visited, bob last. -/
def sharedHost : Database where
  users := [aliceVisit.1, bobVisit.1]
  destinationStats := [aliceVisit.2, bobVisit.2]

theorem sharedHost_topRows :
    sharedHost.topRows "2026-09-01" = [aliceVisit, bobVisit] := by
  decide

theorem sharedHost_blockedRows :
    sharedHost.blockedRows "2026-09-01" = [bobVisit] := by
  rw [blockedRows_eq_filter, sharedHost_topRows]
  decide

theorem sharedHost_untruncated :
    Untruncated 10 (targetCount (sharedHost.topRows "2026-09-01")) ∧
      Untruncated 10 (targetCount (sharedHost.blockedRows "2026-09-01")) := by
  rw [sharedHost_topRows, sharedHost_blockedRows]
  exact ⟨.inr (by decide), .inr (by decide)⟩

/-- The stamps of both visits can be read. -/
theorem sharedHost_stampsRead [Build] {rows : List UserDestination}
    (visits : ∀ row ∈ rows, row = aliceVisit ∨ row = bobVisit) :
    StampsRead rows := by
  intro row isLatest
  have alice : readTime "2026-09-13T12:00:00Z".toList =
      some 1789300800000000000 := by
    decide
  have bob : readTime "2026-09-14T12:00:00Z".toList =
      some 1789387200000000000 := by
    decide
  rcases visits row (mem_ofTarget.mp isLatest.listed).1 with rfl | rfl
  · exact ⟨1789300800000000000, by
      rw [parseTime, UserDestination.lastSeen, aliceVisit, alice]⟩
  · exact ⟨1789387200000000000, by
      rw [parseTime, UserDestination.lastSeen, bobVisit, bob]⟩

theorem sharedHost_topRead [Build] :
    StampsRead (sharedHost.topRows "2026-09-01") := by
  apply sharedHost_stampsRead
  rw [sharedHost_topRows]
  simp

theorem sharedHost_blockedRead [Build] :
    StampsRead (sharedHost.blockedRows "2026-09-01") := by
  apply sharedHost_stampsRead
  rw [sharedHost_blockedRows]
  simp

theorem sharedHost_fits :
    sumsFit (sharedHost.topRows "2026-09-01") = true ∧
      sumsFit (sharedHost.blockedRows "2026-09-01") = true := by
  rw [sharedHost_topRows, sharedHost_blockedRows]
  exact ⟨by decide, by decide⟩

theorem bobVisit_naming :
    Naming (sharedHost.topRows "2026-09-01") bobVisit := by
  refine ⟨.stored _, sharedHost_fits.1, ?_⟩
  change latestRow _ (ofTarget (sharedHost.topRows "2026-09-01") _) = _
  rw [sharedHost_topRows]
  decide

section Credit

variable [Build] (database : Database) (sinceDay : String)
variable (topLimit blockedLimit : Int)

/-- The two reports credit users with their own traffic, in every order
in which the database visits its rows, if and only if in every report
that is answered the rows of other users than the one that names a
destination add up to nothing. -/
theorem reports_credit_iff
    (topUntruncated : Untruncated topLimit
      (targetCount (database.topRows sinceDay)))
    (blockedUntruncated : Untruncated blockedLimit
      (targetCount (database.blockedRows sinceDay))) :
    ReportsCredit database sinceDay topLimit blockedLimit ↔
      (StampsRead (database.topRows sinceDay) →
        UsersApart (database.topRows sinceDay)) ∧
      (StampsRead (database.blockedRows sinceDay) →
        UsersApart (database.blockedRows sinceDay)) := by
  constructor
  · intro credit
    exact ⟨(report_credits_iff topUntruncated).mp credit.top,
      (report_credits_iff blockedUntruncated).mp credit.blocked⟩
  · intro apart
    exact ⟨(report_credits_iff topUntruncated).mpr apart.1,
      (report_credits_iff blockedUntruncated).mpr apart.2⟩

end Credit

/-- Bob is shown with what alice has requested. -/
theorem bob_credited_with_alice :
    ¬ @ReportsCredit sharedHost "2026-09-01" 10 10 Build.dev := by
  intro credit
  have apart := (@report_credits_iff Build.dev _ _ _ _
    sharedHost_untruncated.1).mp (@ReportsCredit.top _ _ _ _ Build.dev credit)
      (@sharedHost_topRead Build.dev) bobVisit bobVisit_naming
  change figuresOf ((ofTarget (sharedHost.topRows "2026-09-01")
    bobVisit).filter _) = 0 at apart
  rw [sharedHost_topRows] at apart
  exact absurd apart (by decide)

/-- On the day on which bob was the only visitor. -/
theorem bobsDay_rows :
    sharedHost.topRows "2026-09-14" = [bobVisit] ∧
      sharedHost.blockedRows "2026-09-14" = [bobVisit] := by
  have top : sharedHost.topRows "2026-09-14" = [bobVisit] := by decide
  refine ⟨top, ?_⟩
  rw [blockedRows_eq_filter, top]
  decide

theorem bobsDay_untruncated :
    Untruncated 10 (targetCount (sharedHost.topRows "2026-09-14")) ∧
      Untruncated 10 (targetCount (sharedHost.blockedRows "2026-09-14")) := by
  rw [bobsDay_rows.1, bobsDay_rows.2]
  exact ⟨.inr (by decide), .inr (by decide)⟩

theorem bobsDay_apart : UsersApart [bobVisit] := by
  intro row naming
  have listed := (mem_ofTarget.mp naming.latest.listed).1
  rw [List.mem_singleton.mp listed]
  decide

/-- The reports of a single visitor credit it with its own traffic. -/
theorem bobsDay_credit :
    @ReportsCredit sharedHost "2026-09-14" 10 10 Build.dev := by
  refine (@reports_credit_iff Build.dev sharedHost "2026-09-14" 10 10
    bobsDay_untruncated.1 bobsDay_untruncated.2).mpr ⟨?_, ?_⟩
  · rw [bobsDay_rows.1]
    exact fun _ => bobsDay_apart
  · rw [bobsDay_rows.2]
    exact fun _ => bobsDay_apart

section Agreement

variable [Build] (database : Database) (sinceDay : String)
variable (topLimit blockedLimit : Int)

/-- The panels agree whenever both are answered, in every order in which
the database visits its rows. -/
def PanelsAlwaysAgree : Prop :=
  ∀ order other top blocked,
    database.listTopDestinations order sinceDay topLimit = .ok top →
    database.listBlockedDestinations other sinceDay blockedLimit =
        .ok blocked →
      PanelsAgree top blocked

variable {database sinceDay topLimit blockedLimit}

theorem PanelsAlwaysAgree.apart
    (agree : PanelsAlwaysAgree database sinceDay topLimit blockedLimit)
    (topUntruncated : Untruncated topLimit
      (targetCount (database.topRows sinceDay)))
    (blockedUntruncated : Untruncated blockedLimit
      (targetCount (database.blockedRows sinceDay)))
    (topAnswerable : Answerable (database.topRows sinceDay))
    (blockedAnswerable : Answerable (database.blockedRows sinceDay)) :
    BlockedApart (database.topRows sinceDay) := by
  obtain ⟨order, top, topDone⟩ :=
    topAnswerable.report DestinationTotal.bytes topUntruncated
  obtain ⟨other, blocked, blockedDone⟩ :=
    blockedAnswerable.report DestinationTotal.blocked blockedUntruncated
  exact (agree order other top blocked topDone blockedDone).apart
    topUntruncated blockedUntruncated topDone blockedDone

/-- The two panels agree, whenever both are answered, if and only if in
every destination of the window with a blocked row the rows without
blocked requests add up to nothing. -/
theorem panels_agree_iff
    (topUntruncated : Untruncated topLimit
      (targetCount (database.topRows sinceDay)))
    (blockedUntruncated : Untruncated blockedLimit
      (targetCount (database.blockedRows sinceDay))) :
    PanelsAlwaysAgree database sinceDay topLimit blockedLimit ↔
      (Answerable (database.topRows sinceDay) →
        Answerable (database.blockedRows sinceDay) →
          BlockedApart (database.topRows sinceDay)) := by
  constructor
  · intro agree
    exact agree.apart topUntruncated blockedUntruncated
  · intro apart order other top blocked topDone blockedDone
    have topAnswerable := Answerable.of_report topUntruncated topDone
    have blockedAnswerable :=
      Answerable.of_report blockedUntruncated blockedDone
    exact (apart topAnswerable blockedAnswerable).panels
      topUntruncated blockedUntruncated topDone blockedDone

end Agreement

/-- The blocked panel leaves the day without blocked requests out of its
totals. -/
theorem blocked_panel_misses_day :
    ¬ @PanelsAlwaysAgree Build.dev sharedHost "2026-09-01" 10 10 := by
  intro agree
  have apart := @PanelsAlwaysAgree.apart Build.dev _ _ _ _ agree
    sharedHost_untruncated.1 sharedHost_untruncated.2
    ⟨@sharedHost_topRead Build.dev, .stored _, sharedHost_fits.1⟩
    ⟨@sharedHost_blockedRead Build.dev, .stored _, sharedHost_fits.2⟩
  rw [sharedHost_topRows] at apart
  exact absurd (apart bobVisit (by simp) (by decide)) (by decide)

/-- The panels agree where every row has blocked requests. -/
theorem bobsDay_panels :
    @PanelsAlwaysAgree Build.dev sharedHost "2026-09-14" 10 10 := by
  refine (@panels_agree_iff Build.dev sharedHost "2026-09-14" 10 10
    bobsDay_untruncated.1 bobsDay_untruncated.2).mpr ?_
  rw [bobsDay_rows.1]
  intro _ _ row listed _
  rw [List.mem_singleton.mp listed]
  decide

end Xoxproxy
