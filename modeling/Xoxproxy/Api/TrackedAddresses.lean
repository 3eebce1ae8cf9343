import Xoxproxy.Api.RateLimit
import Xoxproxy.Auth.Operations
import Xoxproxy.Library.BoundedTables
import Xoxproxy.Library.Runs

/-!
# The tables of addresses

The login limiter and the rate limiter both keep an entry for every
address they have seen lately, and both have a bound for their tables.
-/

namespace Xoxproxy.Api

open AssociationMaps BoundedTables IPLimiter

/-- The two limiters of a server. -/
structure Limiters where
  logins : IPLimiter := {}
  requests : RateLimiter :=
    newRateLimiter rateLimitRate rateLimitBurst

inductive LimitersCall where
  | blocked (ip : String) (now : Time)
  | recordFailure (ip : String) (now : Time)
  | recordSuccess (ip : String)
  | allow (ip : String) (now : Time)
  deriving DecidableEq, Repr

section Steps

variable (options : AuthOptions)

/-- The limiters after a call. -/
def limitersStep : LimitersCall → Limiters → Limiters
  | .blocked _ _, limiters => limiters
  | .recordFailure ip now, limiters =>
      { limiters with logins := limiters.logins.recordFailure options ip now }
  | .recordSuccess ip, limiters =>
      { limiters with logins := limiters.logins.recordSuccess ip }
  | .allow ip now, limiters =>
      { limiters with requests := (limiters.requests.allow ip now).2 }

/-- Both tables are within their bounds. -/
structure WithinBounds (limiters : Limiters) : Prop where
  logins : limiters.logins.entries.length ≤ maxTrackedIPs
  requests : limiters.requests.buckets.length ≤ rateLimitMaxIPs

/-- A call that takes up an address finds room for it. -/
def FindsRoom (limiters : Limiters) : LimitersCall → Prop
  | .blocked _ _ => True
  | .recordFailure ip now =>
      ip = "" ∨ HasRoom maxTrackedIPs (lapsed options now) ip
        limiters.logins.entries
  | .recordSuccess _ => True
  | .allow ip now =>
      HasRoom rateLimitMaxIPs (idle now) ip limiters.requests.buckets

variable {options} {limiters : Limiters} {ip : String} {now : Time}

/-- A failure takes up its address. -/
theorem recordFailure_entries (limiter : IPLimiter) (someIP : ip ≠ "") :
    (limiter.recordFailure options ip now).entries =
      takeUp maxTrackedIPs (lapsed options now) ip (addFailure options now)
        limiter.entries := by
  rw [IPLimiter.recordFailure, if_neg someIP, prune, takeUp, makeRoom]
  split <;> rfl

/-- So does every request. -/
theorem allow_buckets (limiter : RateLimiter) (ip : String) (now : Time) :
    ∃ tokens, (limiter.allow ip now).2.buckets =
      takeUp rateLimitMaxIPs (idle now) ip (fun _ => ⟨tokens, now⟩)
        limiter.buckets := by
  have room : (limiter.dropIdle now).buckets =
      makeRoom rateLimitMaxIPs (idle now) limiter.buckets := by
    rw [RateLimiter.dropIdle, makeRoom]
    split <;> rfl
  unfold RateLimiter.allow takeUp
  rw [← room]
  dsimp only
  rw [filled_eq_level]
  split
  · exact ⟨_, rfl⟩
  · exact ⟨_, rfl⟩

/-- A call keeps both tables within their bounds exactly if it finds
room. -/
theorem withinBounds_step_iff (within : WithinBounds limiters)
    (call : LimitersCall) :
    WithinBounds (limitersStep options call limiters) ↔
      FindsRoom options limiters call := by
  cases call with
  | blocked ip now => exact ⟨fun _ => trivial, fun _ => within⟩
  | recordFailure ip now =>
      by_cases anonymous : ip = ""
      · have same : limiters.logins.recordFailure options ip now =
            limiters.logins := if_pos anonymous
        have kept : WithinBounds (limitersStep options
            (.recordFailure ip now) limiters) := by
          rw [limitersStep, same]
          exact within
        exact ⟨fun _ => Or.inl anonymous, fun _ => kept⟩
      · have bound := @length_takeUp_le_iff _ _ _ maxTrackedIPs
          (lapsed options now) ip (addFailure options now) _ within.logins
        rw [← recordFailure_entries _ anonymous] at bound
        constructor
        · intro after
          exact Or.inr (bound.mp after.logins)
        · intro room
          exact ⟨bound.mpr (room.resolve_left anonymous), within.requests⟩
  | recordSuccess ip =>
      refine ⟨fun _ => trivial, fun _ => ⟨?_, within.requests⟩⟩
      exact (List.length_filter_le _ _).trans within.logins
  | allow ip now =>
      obtain ⟨tokens, taken⟩ := allow_buckets limiters.requests ip now
      have bound := @length_takeUp_le_iff _ _ _ rateLimitMaxIPs (idle now) ip
        (fun _ => ⟨tokens, now⟩) _ within.requests
      rw [← taken] at bound
      constructor
      · intro after
        exact bound.mp after.requests
      · intro room
        exact ⟨within.logins, bound.mpr room⟩

end Steps

theorem withinBounds_new : WithinBounds {} where
  logins := Nat.zero_le _
  requests := Nat.zero_le _

/-- Both tables stay within their bounds in the runs in which every new
address finds room, and in no others. -/
theorem withinBounds_iff (options : AuthOptions) (calls : List LimitersCall) :
    (∀ count, WithinBounds
        (Runs.run (limitersStep options) (calls.take count) {})) ↔
      Runs.Meets (limitersStep options) (FindsRoom options) calls {} := by
  exact @Runs.states_iff_meets _ _ (limitersStep options) (FindsRoom options)
    WithinBounds (fun _ call within => withinBounds_step_iff within call)
    calls {} withinBounds_new

/-- One of many addresses. -/
def scanner (number : Nat) : String := "2001:db8::" ++ toString (number + 1)

theorem scanner_injective : Function.Injective scanner := by
  intro first second same
  have texts : toString (first + 1) = toString (second + 1) := by
    have lists := congrArg String.toList same
    rw [scanner, scanner, String.toList_append, String.toList_append] at lists
    exact String.toList_inj.mp (List.append_cancel_left lists)
  have numbers := congrArg (fun text => decimal text.toList) texts
  simp only [decimal_natText, Option.some.injEq] at numbers
  omega

theorem scanner_ne_empty (number : Nat) : scanner number ≠ "" := by
  intro empty
  have lists := congrArg String.toList empty
  rw [scanner, String.toList_append] at lists
  exact absurd (List.append_eq_nil_iff.mp lists).1 (by decide)

/-- A failed login and a request from every address, all at one instant. -/
def scan (count : Nat) : List LimitersCall :=
  (List.range count).flatMap fun number =>
    [.recordFailure (scanner number) 0, .allow (scanner number) 0]

/-- Tables that hold fresh entries of so many addresses. -/
structure Scanned (options : AuthOptions) (count : Nat)
    (limiters : Limiters) : Prop where
  logins : keys limiters.logins.entries = (List.range count).map scanner
  freshLogins : ∀ entry ∈ limiters.logins.entries,
    lapsed options 0 entry.2 = false
  requests : keys limiters.requests.buckets = (List.range count).map scanner
  freshRequests : ∀ entry ∈ limiters.requests.buckets,
    idle 0 entry.2 = false

theorem scanner_new {count : Nat} :
    scanner count ∉ (List.range count).map scanner := by
  intro member
  obtain ⟨number, listed, same⟩ := List.mem_map.mp member
  have below := List.mem_range.mp listed
  rw [scanner_injective same] at below
  exact Nat.lt_irrefl _ below

/-- Options under which one failure is remembered for some time. -/
structure Patient (options : AuthOptions) : Prop where
  failures : 1 < options.ipMaxFailures
  window : 0 ≤ options.ipWindow

theorem addFailure_fresh {options : AuthOptions} (patient : Patient options) :
    lapsed options 0 (addFailure options 0 none) = false := by
  have failures := patient.failures
  have window := patient.window
  have few : ¬ options.ipMaxFailures ≤ 1 := by omega
  have instant : timeSub 0 0 = 0 := rfl
  have recent : ¬ options.ipWindow < 0 := by omega
  simp [addFailure, lapsed, few, recent, instant]

theorem scanned_step {options : AuthOptions} {count : Nat}
    {limiters : Limiters} (patient : Patient options)
    (scanned : Scanned options count limiters) :
    Scanned options (count + 1)
      (limitersStep options (.allow (scanner count) 0)
        (limitersStep options (.recordFailure (scanner count) 0)
          limiters)) := by
  obtain ⟨tokens, taken⟩ :=
    allow_buckets limiters.requests (scanner count) 0
  have failed := @recordFailure_entries options (scanner count) 0
    limiters.logins (scanner_ne_empty count)
  have newLogin : scanner count ∉ keys limiters.logins.entries :=
    scanned.logins ▸ scanner_new
  have newRequest : scanner count ∉ keys limiters.requests.buckets :=
    scanned.requests ▸ scanner_new
  have longer : (List.range (count + 1)).map scanner =
      (List.range count).map scanner ++ [scanner count] := by
    rw [List.range_succ, List.map_append, List.map_singleton]
  constructor
  · dsimp only [limitersStep]
    rw [failed, keys_takeUp_fresh scanned.freshLogins newLogin,
      scanned.logins, longer]
  · dsimp only [limitersStep]
    rw [failed, takeUp, makeRoom_of_fresh scanned.freshLogins]
    have keeps := @forall_adjust _ _ _ (scanner count) (addFailure options 0)
      limiters.logins.entries (fun _ entry => lapsed options 0 entry = false)
    refine keeps scanned.freshLogins ?_
    rw [find?_eq_none_iff.mpr newLogin]
    exact addFailure_fresh patient
  · dsimp only [limitersStep]
    rw [taken, keys_takeUp_fresh scanned.freshRequests newRequest,
      scanned.requests, longer]
  · dsimp only [limitersStep]
    rw [taken, takeUp, makeRoom_of_fresh scanned.freshRequests]
    have keeps := @forall_adjust _ _ _ (scanner count)
      (fun _ => (⟨tokens, 0⟩ : Bucket)) limiters.requests.buckets
      (fun _ bucket => idle 0 bucket = false)
    have used : ¬ (60000000000 : Int) < 0 - 0 := by decide
    exact keeps scanned.freshRequests (decide_eq_false used)

theorem scanned_run {options : AuthOptions}
    (patient : Patient options) (count : Nat) :
    Scanned options count
      (Runs.run (limitersStep options) (scan count) {}) := by
  induction count with
  | zero =>
      exact {
        logins := rfl
        freshLogins := fun _ member => by cases member
        requests := rfl
        freshRequests := fun _ member => by cases member }
  | succ count inductionHypothesis =>
      have longer : scan (count + 1) = scan count ++
          [.recordFailure (scanner count) 0, .allow (scanner count) 0] := by
        rw [scan, List.range_succ, List.flatMap_append, scan]
        rfl
      rw [longer, Runs.run_append]
      exact scanned_step patient inductionHypothesis

/-- After a scan from more addresses than the bounds, both tables are
beyond them. -/
theorem scan_exceeds :
    ¬ ∀ (options : AuthOptions) (calls : List LimitersCall),
      WithinBounds (Runs.run (limitersStep options) calls {}) := by
  intro always
  have scanned := @scanned_run (AuthOptions.applyDefaults {})
    ⟨by decide, by decide⟩ 8193
  have within := (always (AuthOptions.applyDefaults {}) (scan 8193)).logins
  have entries := congrArg List.length scanned.logins
  rw [keys, List.length_map, List.length_map, List.length_range] at entries
  rw [entries] at within
  exact absurd within (by decide)

end Xoxproxy.Api
