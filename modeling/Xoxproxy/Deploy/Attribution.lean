import Xoxproxy.Deploy.Wakeups
import Xoxproxy.Library.Histories

/-!
# Who a deployment is attributed to

The first call of `Trigger` behind the last take names the next
deployment of a worker.  The token and the reason are published in two
steps, so a token may be received when its reason is already taken: that
deployment is attributed to the system.
-/

namespace Xoxproxy

open EffectPrograms

abbrev TriggerEvent := Event TriggerOp TriggerOp.Answer

abbrev TriggerPast := List TriggerEvent

abbrev TriggerPerformed :=
  Performed TriggerOp TriggerOp.Answer PipelineCall

abbrev TriggerHistory := List TriggerPerformed

abbrev TriggerRecorded :=
  Recorded TriggerOp TriggerOp.Answer PipelineCall TriggerHost

/-- The actor and the reason that a goroutine calls `Trigger` with. -/
def PipelineCall.proposal? (call : PipelineCall) :
    Option (String × String) :=
  match call.request with
  | .mutator actor reason => some (actor, reason)
  | _ => none

/-- A call of `Trigger` that names a reason has come to its turn. -/
def proposer? : TriggerPerformed → Option PipelineCall
  | ⟨⟨number, .mutator actor reason⟩, ⟨.lockReason, _⟩⟩ =>
      if reason = "" then none else some ⟨number, .mutator actor reason⟩
  | _ => none

/-- A worker has come to take the reason. -/
def takesReason : TriggerPerformed → Bool
  | ⟨⟨_, .worker _⟩, ⟨.lockReason, _⟩⟩ => true
  | _ => false

/-- The first call of `Trigger` since a worker last took the reason. -/
def firstProposer (history : TriggerHistory) : Option PipelineCall :=
  (history.rtakeWhile fun performed => !takesReason performed).findSome?
    proposer?

/-- A worker has received a token. -/
def receives : TriggerPerformed → Bool
  | ⟨_, ⟨.awaitWake, true⟩⟩ => true
  | _ => false

/-- A goroutine has offered a token. -/
def sender? : TriggerPerformed → Option PipelineCall
  | ⟨call, ⟨.offerWake, _⟩⟩ => some call
  | _ => none

/-- Who sent the token in the channel: the first offer since a token was
last received; the later ones find the channel full. -/
def tokenSender (history : TriggerHistory) : Option PipelineCall :=
  (history.rtakeWhile fun performed => !receives performed).findSome?
    sender?

/-- The rows that a deployment records name the actor and the reason. -/
def Carries (names : String × String) : DeployOp → Prop
  | .recordVersion version =>
      version.generatedBy = names.1 ∧ version.reason = names.2
  | .recordAudit entry => entry.actor = names.1 ∧ entry.target = names.2
  | _ => True

/-- What was performed before the goroutine last came to its turn. -/
def TakenBehind (history : TriggerHistory) (call : PipelineCall)
    (earlier : TriggerHistory) : Prop :=
  ∃ later, history = earlier ++ ⟨call, ⟨.lockReason, ()⟩⟩ :: later ∧
    ∀ performed ∈ later,
      performed.label = call → performed.event.op ≠ .lockReason

/-- A call of `Trigger` has come to its turn. -/
def CameToTurn (history : TriggerHistory) (sender : PipelineCall) : Prop :=
  sender.proposal?.isSome = true ∧
    ⟨sender, ⟨.lockReason, ()⟩⟩ ∈ history

/-- How far a goroutine has come with the lock of the reason, and what it
has loaded. -/
inductive Turn where
  | outside
  | locked
  | loaded (next : String × String)
  | replaced (next : String × String)
  | done (next : String × String)
  deriving DecidableEq

def Turn.after (turn : Turn) : TriggerEvent → Turn
  | ⟨.lockReason, _⟩ => .locked
  | ⟨.loadNext, next⟩ => .loaded next
  | ⟨.storeNext _ _, _⟩ =>
      match turn with
      | .loaded next => .replaced next
      | other => other
  | ⟨.unlockReason, _⟩ =>
      match turn with
      | .loaded next => .done next
      | .replaced next => .done next
      | other => other
  | _ => turn

def turnOf (past : TriggerPast) : Turn := past.foldl Turn.after .outside

theorem turnOf_snoc (past : TriggerPast) (event : TriggerEvent) :
    turnOf (past ++ [event]) = (turnOf past).after event := by
  simp [turnOf]

section Turns

variable {past : TriggerPast} {next : String × String}

end Turns

/-- The goroutine has the lock. -/
def Turn.Busy : Turn → Prop
  | .locked | .loaded _ | .replaced _ => True
  | _ => False

/-- What a goroutine may store where it has loaded what it has. -/
def MayStore (call : PipelineCall) (next stored : String × String) : Prop :=
  match call.request with
  | .mutator actor reason => next.2 = "" ∧ stored = (actor, reason)
  | .worker _ => stored = ("", "")
  | .direct _ _ => False

/-- What a worker names for what it has taken. -/
def namedFor (next : String × String) : String × String :=
  if next.2 = "" then ("system", "state-change") else next

/-- When a goroutine performs an operation. -/
def reasonLicence (call : PipelineCall) (past : TriggerPast) :
    TriggerOp → Prop
  | .lockReason =>
      match call.request with
      | .mutator _ _ => turnOf past = .outside
      | .worker _ =>
          ¬(turnOf past).Busy ∧ past.getLast? = some ⟨.awaitWake, true⟩
      | .direct _ _ => False
  | .loadNext => turnOf past = .locked
  | .storeNext actor reason =>
      ∃ next, turnOf past = .loaded next ∧ MayStore call next (actor, reason)
  | .unlockReason =>
      (∃ next, turnOf past = .replaced next) ∨
        ∃ next, turnOf past = .loaded next ∧ next.2 ≠ "" ∧
          ¬call.isWorker
  | .deploy op =>
      call.isWorker →
        ∃ next, turnOf past = .done next ∧ Carries (namedFor next) op
  | .offerWake =>
      call.proposal?.isSome = true ∧ ∃ next, turnOf past = .done next
  | _ => True

/-! ## What a deployment records -/

section Recording

variable {names : String × String}

variable [Build] (deployer : Deployer)

end Recording

section Programs

variable {call : PipelineCall} {past : TriggerPast}

variable [Build] (deployer : Deployer)

end Programs

section Proposals

variable {history : TriggerHistory} {performed : TriggerPerformed}

theorem firstProposer_snoc (history : TriggerHistory)
    (performed : TriggerPerformed) :
    firstProposer (history ++ [performed]) =
      if takesReason performed = true then none
      else (firstProposer history).or (proposer? performed) := by
  rw [firstProposer]
  by_cases taken : takesReason performed = true
  · rw [if_pos taken, List.rtakeWhile_concat_neg _ _ _ (by simp [taken])]
    rfl
  · rw [if_neg taken, List.rtakeWhile_concat_pos _ _ _ (by simp [taken]),
      List.findSome?_append]
    simp [firstProposer]

/-- Only who comes to the lock proposes or takes. -/
theorem firstProposer_other
    (other : performed.event.op ≠ .lockReason) :
    firstProposer (history ++ [performed]) = firstProposer history := by
  obtain ⟨⟨number, request⟩, op, answer⟩ := performed
  rw [firstProposer_snoc]
  cases op with
  | lockReason => exact absurd rfl other
  | _ => cases request <;> simp [takesReason, proposer?]

theorem firstProposer_append {later : TriggerHistory}
    (others : ∀ performed ∈ later, performed.event.op ≠ .lockReason) :
    firstProposer (history ++ later) = firstProposer history := by
  induction later using List.reverseRecOn with
  | nil => rw [List.append_nil]
  | append_singleton rest last inductionHypothesis =>
      rw [← List.append_assoc, firstProposer_other (others last (by simp))]
      exact inductionHypothesis fun performed member =>
        others performed (List.mem_append_left _ member)

end Proposals

/-! ## The invariant -/

/-- What is stored is what the proposal names. -/
def Names (next : String × String) : Option PipelineCall → Prop
  | none => next.2 = ""
  | some proposer => proposer.proposal? = some next ∧ next.2 ≠ ""

/-- What a worker would take. -/
def TriggerHost.next (host : TriggerHost) : String × String :=
  (host.nextActor, host.nextReason)

/-- Nobody came to the lock behind the goroutine. -/
def LastTurn (history : TriggerHistory) (call : PipelineCall)
    (earlier : TriggerHistory) : Prop :=
  ∃ later, history = earlier ++ ⟨call, ⟨.lockReason, ()⟩⟩ :: later ∧
    ∀ performed ∈ later, performed.event.op ≠ .lockReason

/-- What is known of a goroutine that has come so far. -/
def Standing (recorded : TriggerRecorded) (call : PipelineCall) :
    Turn → Prop
  | .outside => True
  | .locked =>
      ∃ earlier, LastTurn recorded.history call earlier ∧
        Names recorded.world.next (firstProposer earlier)
  | .loaded next =>
      next = recorded.world.next ∧
        ∃ earlier, LastTurn recorded.history call earlier ∧
          Names next (firstProposer earlier)
  | .replaced next =>
      Names recorded.world.next (firstProposer recorded.history) ∧
        ∃ earlier, LastTurn recorded.history call earlier ∧
          Names next (firstProposer earlier)
  | .done next =>
      ∃ earlier, TakenBehind recorded.history call earlier ∧
        Names next (firstProposer earlier)

/-- How far the goroutine has come. -/
def turnIn (history : TriggerHistory) (call : PipelineCall) : Turn :=
  turnOf (ownEvents call history)

structure Ordered (recorded : TriggerRecorded) : Prop where
  standing : ∀ call,
    Standing recorded call (turnIn recorded.history call)
  free : recorded.world.reasonHeld = false →
    ∀ call, ¬(turnIn recorded.history call).Busy
  single : ∀ call other, (turnIn recorded.history call).Busy →
    (turnIn recorded.history other).Busy → call = other
  idle : recorded.world.reasonHeld = false →
    Names recorded.world.next (firstProposer recorded.history)

/-- The operations on the reason and its lock. -/
def OnReason : TriggerOp → Prop
  | .lockReason | .unlockReason | .loadNext | .storeNext _ _ => True
  | _ => False

section Frames

variable {host after : TriggerHost} {call other : PipelineCall}
variable {op : TriggerOp} {choice : TriggerChoice} {answer : op.Answer}
variable {history : TriggerHistory} {event : TriggerEvent}

theorem reason_of_handle (apart : ¬OnReason op)
    (handled : host.handle call op choice = some (answer, after)) :
    after.next = host.next ∧ after.reasonHeld = host.reasonHeld := by
  cases op with
  | lockReason | unlockReason | loadNext | storeNext actor reason =>
      exact absurd trivial apart
  | commit =>
      rw [TriggerHost.handle] at handled
      split at handled
      all_goals
        obtain ⟨-, rfl⟩ := Prod.mk.inj (Option.some.inj handled)
        exact ⟨rfl, rfl⟩
  | offerWake =>
      obtain ⟨-, rfl⟩ := Prod.mk.inj (Option.some.inj handled)
      exact ⟨rfl, rfl⟩
  | awaitWake =>
      rw [TriggerHost.handle] at handled
      split at handled
      · obtain ⟨-, rfl⟩ := Prod.mk.inj (Option.some.inj handled)
        exact ⟨rfl, rfl⟩
      · split at handled
        · obtain ⟨-, rfl⟩ := Prod.mk.inj (Option.some.inj handled)
          exact ⟨rfl, rfl⟩
        · cases handled
  | deploy op =>
      cases op with
      | lockDeploy =>
          rw [TriggerHost.handle] at handled
          split at handled
          · cases handled
          · obtain ⟨-, rfl⟩ := Prod.mk.inj (Option.some.inj handled)
            exact ⟨rfl, rfl⟩
      | _ =>
          obtain ⟨-, rfl⟩ := Prod.mk.inj (Option.some.inj handled)
          exact ⟨rfl, rfl⟩

theorem turnIn_self (history : TriggerHistory) (call : PipelineCall)
    (event : TriggerEvent) :
    turnIn (history ++ [⟨call, event⟩]) call =
      (turnIn history call).after event := by
  rw [turnIn, ownEvents_append, ownEvents_self, turnOf_snoc]
  rfl

theorem turnIn_other (apart : call ≠ other) :
    turnIn (history ++ [⟨call, event⟩]) other = turnIn history other := by
  rw [turnIn, ownEvents_append, ownEvents_other apart, List.append_nil]
  rfl

theorem after_of_apart (turn : Turn) (apart : ¬OnReason event.op) :
    turn.after event = turn := by
  obtain ⟨op, answer⟩ := event
  cases op with
  | lockReason | unlockReason | loadNext | storeNext actor reason =>
      exact absurd trivial apart
  | _ => rfl

/-- An operation apart from the reason brings nobody further. -/
theorem turnIn_apart (apart : ¬OnReason event.op) :
    turnIn (history ++ [⟨call, event⟩]) other = turnIn history other := by
  by_cases same : call = other
  · rw [same, turnIn_self, after_of_apart _ apart]
  · exact turnIn_other same

end Frames

section Standing

variable {before after : TriggerRecorded} {call : PipelineCall}
variable {history earlier : TriggerHistory} {performed : TriggerPerformed}
variable {turn : Turn}

theorem LastTurn.taken (last : LastTurn history call earlier) :
    TakenBehind history call earlier := by
  obtain ⟨later, split, others⟩ := last
  exact ⟨later, split, fun performed member _ => others performed member⟩

theorem lastTurn_now (history : TriggerHistory) (call : PipelineCall) :
    LastTurn (history ++ [⟨call, ⟨.lockReason, ()⟩⟩]) call history :=
  ⟨[], rfl, fun _ member => by cases member⟩

theorem LastTurn.grow (last : LastTurn history call earlier)
    (other : performed.event.op ≠ .lockReason) :
    LastTurn (history ++ [performed]) call earlier := by
  obtain ⟨later, rfl, others⟩ := last
  refine ⟨later ++ [performed], by simp, ?_⟩
  intro item member
  rcases List.mem_append.mp member with old | new
  · exact others item old
  · rw [List.mem_singleton.mp new]
    exact other

theorem TakenBehind.grow (taken : TakenBehind history call earlier)
    (other : performed.label = call → performed.event.op ≠ .lockReason) :
    TakenBehind (history ++ [performed]) call earlier := by
  obtain ⟨later, rfl, others⟩ := taken
  refine ⟨later ++ [performed], by simp, ?_⟩
  intro item member
  rcases List.mem_append.mp member with old | new
  · exact others item old
  · rw [List.mem_singleton.mp new]
    exact other

/-- Who comes to the lock changes what is proposed first. -/
theorem LastTurn.firstProposer (last : LastTurn history call earlier) :
    firstProposer history =
      firstProposer (earlier ++ [⟨call, ⟨.lockReason, ()⟩⟩]) := by
  obtain ⟨later, rfl, others⟩ := last
  have split : earlier ++ ⟨call, ⟨.lockReason, ()⟩⟩ :: later =
      (earlier ++ [⟨call, ⟨.lockReason, ()⟩⟩]) ++ later := by simp
  rw [split, firstProposer_append others]

/-- Somebody else's operation, or one apart from the lock, leaves alone
what is known of a goroutine outside the lock. -/
theorem Standing.rest (standing : Standing before call turn)
    (idle : ¬turn.Busy)
    (grown : after.history = before.history ++ [performed])
    (other : performed.label = call → performed.event.op ≠ .lockReason) :
    Standing after call turn := by
  cases turn with
  | outside => exact trivial
  | locked | loaded next | replaced next => exact absurd trivial idle
  | done next =>
      obtain ⟨earlier, taken, names⟩ := standing
      refine ⟨earlier, ?_, names⟩
      rw [grown]
      exact taken.grow other

/-- An operation that neither comes to the lock nor stores leaves alone
what is known of a goroutine. -/
theorem Standing.grow (standing : Standing before call turn)
    (grown : after.history = before.history ++ [performed])
    (next : after.world.next = before.world.next)
    (other : performed.event.op ≠ .lockReason) :
    Standing after call turn := by
  cases turn with
  | outside => exact trivial
  | locked =>
      obtain ⟨earlier, last, names⟩ := standing
      refine ⟨earlier, ?_, next ▸ names⟩
      rw [grown]
      exact last.grow other
  | loaded found =>
      obtain ⟨same, earlier, last, names⟩ := standing
      refine ⟨next ▸ same, earlier, ?_, names⟩
      rw [grown]
      exact last.grow other
  | replaced found =>
      obtain ⟨stored, earlier, last, names⟩ := standing
      refine ⟨?_, earlier, ?_, names⟩
      · rw [next, grown, firstProposer_other other]
        exact stored
      · rw [grown]
        exact last.grow other
  | done found =>
      obtain ⟨earlier, taken, names⟩ := standing
      refine ⟨earlier, ?_, names⟩
      rw [grown]
      exact taken.grow fun _ => other

end Standing

/-! ## Steps -/

section Steps

variable {before after : TriggerRecorded} {call : PipelineCall}
variable {event : TriggerEvent}

/-- The turns stay in order when only the goroutine that performs the
operation may have the lock. -/
theorem ordered_of_own
    (others : ∀ other, call ≠ other →
      ¬(turnIn after.history other).Busy ∧
        Standing after other (turnIn after.history other))
    (own : Standing after call (turnIn after.history call))
    (released : after.world.reasonHeld = false →
      ¬(turnIn after.history call).Busy ∧
        Names after.world.next (firstProposer after.history)) :
    Ordered after where
  standing := by
    intro other
    by_cases same : call = other
    · rw [← same]
      exact own
    · exact (others other same).2
  free := by
    intro free asked
    by_cases same : call = asked
    · rw [← same]
      exact (released free).1
    · exact (others asked same).1
  single := by
    intro first second firstBusy secondBusy
    have isCall : ∀ other, (turnIn after.history other).Busy →
        call = other := by
      intro other busy
      by_contra apart
      exact (others other apart).1 busy
    rw [← isCall first firstBusy, ← isCall second secondBusy]
  idle := fun free => (released free).2

/-- While one goroutine has the lock, or nobody, the others rest. -/
theorem Ordered.others (ordered : Ordered before)
    (grown : after.history = before.history ++ [⟨call, event⟩])
    (resting : ∀ other, call ≠ other →
      ¬(turnIn before.history other).Busy) :
    ∀ other, call ≠ other → ¬(turnIn after.history other).Busy ∧
      Standing after other (turnIn after.history other) := by
  intro other apart
  rw [grown, turnIn_other apart]
  exact ⟨resting other apart, (ordered.standing other).rest
    (resting other apart) grown fun same => absurd same apart⟩

theorem Ordered.resting (ordered : Ordered before)
    (busy : (turnIn before.history call).Busy) :
    ∀ other, call ≠ other → ¬(turnIn before.history other).Busy :=
  fun _ apart otherBusy => apart (ordered.single _ _ busy otherBusy)

theorem Ordered.held (ordered : Ordered before)
    (busy : (turnIn before.history call).Busy) :
    before.world.reasonHeld = true := by
  by_contra free
  exact ordered.free (by simpa using free) call busy

theorem Ordered.lock (ordered : Ordered before)
    (free : before.world.reasonHeld = false)
    (grown : after.history =
      before.history ++ [⟨call, ⟨.lockReason, ()⟩⟩])
    (world : after.world = { before.world with reasonHeld := true }) :
    Ordered after := by
  refine ordered_of_own (ordered.others grown
    fun other _ => ordered.free free other) ?_ ?_
  · rw [grown, turnIn_self]
    refine ⟨before.history, ?_, ?_⟩
    · rw [grown]
      exact lastTurn_now before.history call
    · rw [world]
      exact ordered.idle free
  · intro released
    rw [world] at released
    cases released

theorem Ordered.load (ordered : Ordered before)
    (locked : turnIn before.history call = .locked)
    (grown : after.history =
      before.history ++ [⟨call, ⟨.loadNext, before.world.next⟩⟩])
    (world : after.world = before.world) : Ordered after := by
  have busy : (turnIn before.history call).Busy := by
    rw [locked]
    exact trivial
  have standing := ordered.standing call
  rw [locked] at standing
  obtain ⟨earlier, last, names⟩ := standing
  refine ordered_of_own (ordered.others grown (ordered.resting busy))
    ?_ ?_
  · rw [grown, turnIn_self]
    refine ⟨by rw [world], earlier, ?_, names⟩
    rw [grown]
    exact last.grow fun same => by cases same
  · intro released
    rw [world, ordered.held busy] at released
    cases released

theorem Ordered.store (ordered : Ordered before)
    {next : String × String} {actor reason : String}
    (loaded : turnIn before.history call = .loaded next)
    (stores : MayStore call next (actor, reason))
    (grown : after.history =
      before.history ++ [⟨call, ⟨.storeNext actor reason, ()⟩⟩])
    (world : after.world = { before.world with
      nextActor := actor, nextReason := reason }) : Ordered after := by
  have busy : (turnIn before.history call).Busy := by
    rw [loaded]
    exact trivial
  have standing := ordered.standing call
  rw [loaded] at standing
  obtain ⟨-, earlier, last, names⟩ := standing
  have other : TriggerOp.storeNext actor reason ≠ .lockReason :=
    fun same => by cases same
  refine ordered_of_own (ordered.others grown (ordered.resting busy))
    ?_ ?_
  · have stored := turnIn_self before.history call
      ⟨.storeNext actor reason, ()⟩
    rw [loaded] at stored
    rw [grown, stored]
    refine ⟨?_, earlier, ?_, names⟩
    · rw [grown, firstProposer_other other, last.firstProposer,
        firstProposer_snoc, world]
      obtain ⟨number, request⟩ := call
      cases request with
      | mutator own ownReason =>
          obtain ⟨empty, same⟩ := stores
          cases same
          cases first : firstProposer earlier with
          | some proposer =>
              rw [first] at names
              exact absurd empty names.2
          | none =>
              change Names (actor, reason) (if reason = "" then none
                else some _)
              by_cases unnamed : reason = ""
              · rw [if_pos unnamed]
                exact unnamed
              · rw [if_neg unnamed]
                exact ⟨rfl, unnamed⟩
      | worker rounds =>
          cases stores
          rfl
      | direct own ownReason => exact stores.elim
    · rw [grown]
      exact last.grow other
  · intro released
    rw [world] at released
    cases (ordered.held busy).symm.trans released

theorem Ordered.unlock (ordered : Ordered before)
    (allowed : reasonLicence call (ownEvents call before.history)
      .unlockReason)
    (grown : after.history =
      before.history ++ [⟨call, ⟨.unlockReason, ()⟩⟩])
    (world : after.world = { before.world with reasonHeld := false }) :
    Ordered after := by
  have other : TriggerOp.unlockReason ≠ .lockReason :=
    fun same => by cases same
  have next : after.world.next = before.world.next := by rw [world]; rfl
  -- What the goroutine leaves behind, and what it has loaded.
  obtain ⟨found, busy, done, left, earlier, last, names⟩ :
      ∃ found, (turnIn before.history call).Busy ∧
        turnIn after.history call = .done found ∧
        Names before.world.next (firstProposer before.history) ∧
        ∃ earlier, LastTurn before.history call earlier ∧
          Names found (firstProposer earlier) := by
    have standing := ordered.standing call
    have unlocked := turnIn_self before.history call ⟨.unlockReason, ()⟩
    rw [grown, unlocked]
    rcases allowed with ⟨found, replaced⟩ |
      ⟨found, loaded, named, notWorker⟩
    · change turnIn before.history call = .replaced found at replaced
      rw [replaced] at standing
      rw [replaced]
      exact ⟨found, trivial, rfl, standing.1, standing.2⟩
    · change turnIn before.history call = .loaded found at loaded
      rw [loaded] at standing
      rw [loaded]
      obtain ⟨same, earlier, last, names⟩ := standing
      refine ⟨found, trivial, rfl, ?_, earlier, last, names⟩
      rw [← same, last.firstProposer, firstProposer_snoc]
      obtain ⟨number, request⟩ := call
      have kept : takesReason ⟨⟨number, request⟩, ⟨.lockReason, ()⟩⟩ ≠
          true := by
        cases request with
        | worker rounds => exact absurd ⟨rounds, rfl⟩ notWorker
        | _ => exact fun taken => by cases taken
      rw [if_neg kept]
      cases first : firstProposer earlier with
      | none =>
          rw [first] at names
          exact absurd names named
      | some proposer =>
          rw [first] at names
          exact names
  have resting : ¬(turnIn after.history call).Busy := by
    rw [done]
    exact id
  refine ordered_of_own (ordered.others grown (ordered.resting busy))
    ?_ ?_
  · rw [done]
    refine ⟨earlier, ?_, names⟩
    rw [grown]
    exact (last.grow other).taken
  · intro _
    refine ⟨resting, ?_⟩
    rw [next, grown, firstProposer_other other]
    exact left

theorem Ordered.apart (ordered : Ordered before)
    (apart : ¬OnReason event.op)
    (grown : after.history = before.history ++ [⟨call, event⟩])
    (next : after.world.next = before.world.next)
    (held : after.world.reasonHeld = before.world.reasonHeld) :
    Ordered after := by
  have other : event.op ≠ .lockReason := by
    intro same
    rw [same] at apart
    exact apart trivial
  have turns : ∀ asked, turnIn after.history asked =
      turnIn before.history asked := by
    intro asked
    rw [grown]
    exact turnIn_apart apart
  refine ⟨?_, ?_, ?_, ?_⟩
  · intro asked
    rw [turns]
    exact (ordered.standing asked).grow grown next other
  · intro free asked
    rw [turns]
    exact ordered.free (held ▸ free) asked
  · intro first second
    rw [turns, turns]
    exact ordered.single first second
  · intro free
    rw [next, grown, firstProposer_other other]
    exact ordered.idle (held ▸ free)

variable {op : TriggerOp} {choice : TriggerChoice} {answer : op.Answer}
variable [Build] {deployer : Deployer}

/-- Every operation keeps the turns in order. -/
theorem Ordered.step (ordered : Ordered before)
    (accounts : Accounts (triggerMachine deployer) reasonLicence before
      after call op choice answer) : Ordered after := by
  have handled : before.world.handle call op choice =
      some (answer, after.world) := accounts.handled
  by_cases apart : ¬OnReason op
  · obtain ⟨next, held⟩ := reason_of_handle apart handled
    exact ordered.apart apart accounts.history next held
  cases op with
  | lockReason =>
      rw [TriggerHost.handle] at handled
      split at handled
      · cases handled
      · rename_i free
        obtain ⟨-, world⟩ := Prod.mk.inj (Option.some.inj handled)
        exact ordered.lock (by simpa using free) accounts.history world.symm
  | unlockReason =>
      obtain ⟨-, world⟩ := Prod.mk.inj (Option.some.inj handled)
      exact ordered.unlock accounts.licensed accounts.history world.symm
  | loadNext =>
      obtain ⟨rfl, world⟩ := Prod.mk.inj (Option.some.inj handled)
      exact ordered.load accounts.licensed accounts.history world.symm
  | storeNext actor reason =>
      obtain ⟨-, world⟩ := Prod.mk.inj (Option.some.inj handled)
      obtain ⟨next, loaded, stores⟩ := accounts.licensed
      exact ordered.store loaded stores accounts.history world.symm
  | _ => exact absurd id apart

end Steps

/-! ## Tokens -/

section Tokens

variable {before after : TriggerRecorded} {history : TriggerHistory}
variable {performed : TriggerPerformed} {call : PipelineCall}

theorem tokenSender_snoc (history : TriggerHistory)
    (performed : TriggerPerformed) :
    tokenSender (history ++ [performed]) =
      if receives performed = true then none
      else (tokenSender history).or (sender? performed) := by
  rw [tokenSender]
  by_cases received : receives performed = true
  · rw [if_pos received,
      List.rtakeWhile_concat_neg _ _ _ (by simp [received])]
    rfl
  · rw [if_neg received,
      List.rtakeWhile_concat_pos _ _ _ (by simp [received]),
      List.findSome?_append]
    simp [tokenSender]

theorem CameToTurn.grow (came : CameToTurn history call)
    (performed : TriggerPerformed) :
    CameToTurn (history ++ [performed]) call :=
  ⟨came.1, List.mem_append_left _ came.2⟩

/-- The channel holds the token of a call of `Trigger` that had come to
its turn, or none. -/
def Channel (recorded : TriggerRecorded) : Option PipelineCall → Prop
  | none => recorded.world.wake = false
  | some sender =>
      recorded.world.wake = true ∧ CameToTurn recorded.history sender

/-- Every token that was received was sent by a call of `Trigger` that had
come to its turn. -/
def TokensSent : TriggerHistory → Prop :=
  AtEach fun before performed => receives performed = true →
    ∃ sender, tokenSender before = some sender ∧ CameToTurn before sender

structure Tokens (recorded : TriggerRecorded) : Prop where
  channel : Channel recorded (tokenSender recorded.history)
  sent : TokensSent recorded.history

/-- The operations on the channel. -/
def OnChannel : TriggerOp → Prop
  | .offerWake | .awaitWake => True
  | _ => False

theorem Channel.grow {sender : Option PipelineCall}
    (channel : Channel before sender)
    (grown : after.history = before.history ++ [performed])
    (wake : after.world.wake = before.world.wake) :
    Channel after sender := by
  cases sender with
  | none => exact wake.trans channel
  | some sender =>
      refine ⟨wake.trans channel.1, ?_⟩
      rw [grown]
      exact channel.2.grow performed

/-- Nothing but an offer or a receipt changes what the channel holds. -/
theorem Tokens.apart (tokens : Tokens before)
    (grown : after.history = before.history ++ [performed])
    (received : receives performed = false)
    (sender : sender? performed = none)
    (wake : after.world.wake = before.world.wake) : Tokens after where
  channel := by
    have same : tokenSender after.history = tokenSender before.history := by
      rw [grown, tokenSender_snoc, if_neg (by simp [received]), sender,
        Option.or_none]
    rw [same]
    exact tokens.channel.grow grown wake
  sent := by
    rw [grown]
    apply AtEach.snoc tokens.sent
    intro receipt
    rw [received] at receipt
    cases receipt

/-- Who offers a token has come to its turn. -/
theorem Tokens.offer (tokens : Tokens before)
    (came : CameToTurn before.history call)
    (grown : after.history =
      before.history ++ [⟨call, ⟨.offerWake, ()⟩⟩])
    (wake : after.world.wake = true) : Tokens after where
  channel := by
    have joined : tokenSender after.history =
        (tokenSender before.history).or (some call) := by
      rw [grown, tokenSender_snoc]
      rfl
    have holds := tokens.channel
    rw [joined]
    cases found : tokenSender before.history with
    | none =>
        refine ⟨wake, ?_⟩
        rw [grown]
        exact came.grow _
    | some sender =>
        rw [found] at holds
        refine ⟨wake, ?_⟩
        rw [grown]
        exact holds.2.grow _
  sent := by
    rw [grown]
    exact AtEach.snoc tokens.sent fun receipt => by cases receipt

/-- A token that is received leaves the channel empty. -/
theorem Tokens.receive (tokens : Tokens before)
    (full : before.world.wake = true)
    (grown : after.history =
      before.history ++ [⟨call, ⟨.awaitWake, true⟩⟩])
    (wake : after.world.wake = false) : Tokens after where
  channel := by
    rw [grown, tokenSender_snoc]
    exact wake
  sent := by
    rw [grown]
    apply AtEach.snoc tokens.sent
    intro _
    have holds := tokens.channel
    cases found : tokenSender before.history with
    | none =>
        rw [found] at holds
        cases full.symm.trans holds
    | some sender =>
        rw [found] at holds
        exact ⟨sender, rfl, holds.2⟩

theorem wake_of_handle {host next : TriggerHost} {op : TriggerOp}
    {choice : TriggerChoice} {answer : op.Answer} (apart : ¬OnChannel op)
    (handled : host.handle call op choice = some (answer, next)) :
    next.wake = host.wake := by
  cases op with
  | offerWake | awaitWake => exact absurd trivial apart
  | commit =>
      rw [TriggerHost.handle] at handled
      split at handled
      all_goals
        obtain ⟨-, rfl⟩ := Prod.mk.inj (Option.some.inj handled)
        rfl
  | lockReason =>
      rw [TriggerHost.handle] at handled
      split at handled
      · cases handled
      · obtain ⟨-, rfl⟩ := Prod.mk.inj (Option.some.inj handled)
        rfl
  | deploy op =>
      cases op with
      | lockDeploy =>
          rw [TriggerHost.handle] at handled
          split at handled
          · cases handled
          · obtain ⟨-, rfl⟩ := Prod.mk.inj (Option.some.inj handled)
            rfl
      | _ =>
          obtain ⟨-, rfl⟩ := Prod.mk.inj (Option.some.inj handled)
          rfl
  | _ =>
      obtain ⟨-, rfl⟩ := Prod.mk.inj (Option.some.inj handled)
      rfl

end Tokens

section Unclaimed

variable {history : TriggerHistory} {past : TriggerPast}

end Unclaimed

/-! ## Every run -/

section Runs

variable [Build] (deployer : Deployer)

variable {deployer} {before after : TriggerRecorded}
variable {call : PipelineCall} {op : TriggerOp} {choice : TriggerChoice}
variable {answer : op.Answer}

/-- Every operation keeps an account of the tokens. -/
theorem Tokens.step (tokens : Tokens before) (ordered : Ordered before)
    (accounts : Accounts (triggerMachine deployer) reasonLicence before
      after call op choice answer) : Tokens after := by
  have handled : before.world.handle call op choice =
      some (answer, after.world) := accounts.handled
  cases op with
  | offerWake =>
      obtain ⟨-, world⟩ := Prod.mk.inj (Option.some.inj handled)
      obtain ⟨proposes, next, done⟩ := accounts.licensed
      have standing := ordered.standing call
      change turnIn before.history call = .done next at done
      rw [done] at standing
      obtain ⟨earlier, ⟨later, split, -⟩, -⟩ := standing
      apply tokens.offer ⟨proposes, ?_⟩ accounts.history
      · rw [← world]
        rfl
      · rw [split]
        exact List.mem_append_right _ List.mem_cons_self
  | awaitWake =>
      rw [TriggerHost.handle] at handled
      split at handled
      · obtain ⟨rfl, world⟩ := Prod.mk.inj (Option.some.inj handled)
        exact tokens.apart accounts.history rfl rfl
          (congrArg TriggerHost.wake world).symm
      · split at handled
        · rename_i full
          obtain ⟨rfl, world⟩ := Prod.mk.inj (Option.some.inj handled)
          exact tokens.receive full accounts.history
            (congrArg TriggerHost.wake world).symm
        · cases handled
  | _ =>
      exact tokens.apart accounts.history rfl rfl
        (wake_of_handle id handled)

end Runs

end Xoxproxy
