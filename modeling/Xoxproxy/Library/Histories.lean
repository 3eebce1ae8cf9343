import Mathlib.Data.List.DropRight
import Xoxproxy.Library.EffectPrograms

/-!
# Programs and what they have performed

A program is licensed when everything it performs is accounted for by what
it has performed before.  A recorded machine keeps, beside its world,
everything its threads have performed, in order.
-/

namespace EffectPrograms

variable {Op : Type} {Answer : Op → Type} {Value Result World : Type}
variable {Label Choice Outside : Type}

/-- Whatever the answers are, the operations are licensed by what was
performed before them, and the end is as `post` says. -/
def Licensed
    (licence : List (Event Op Answer) → Op → Prop)
    (post : List (Event Op Answer) → Result → Prop) :
    Program Op Answer Result → List (Event Op Answer) → Prop
  | .ret value, past => post past value
  | .call op next, past =>
      licence past op ∧
        ∀ answer, Licensed licence post (next answer)
          (past ++ [⟨op, answer⟩])

section Rules

variable {licence : List (Event Op Answer) → Op → Prop}
variable {post : List (Event Op Answer) → Result → Prop}
variable {past : List (Event Op Answer)}

theorem licensed_call
    {op : Op} {next : Answer op → Program Op Answer Result}
    (allowed : licence past op)
    (later : ∀ answer,
      Licensed licence post (next answer) (past ++ [⟨op, answer⟩])) :
    Licensed licence post (.call op next) past :=
  ⟨allowed, later⟩

theorem licensed_ret {value : Result} (holds : post past value) :
    Licensed licence post (.ret value) past :=
  holds

/-- A sequence is licensed when its second part is, from every end of its
first part. -/
theorem licensed_bind
    {Middle : Type} {program : Program Op Answer Middle}
    {continuation : Middle → Program Op Answer Result}
    {between : List (Event Op Answer) → Middle → Prop}
    (first : Licensed licence between program past)
    (second : ∀ later value, between later value →
      Licensed licence post (continuation value) later) :
    Licensed licence post (program >>= continuation) past := by
  induction program generalizing past with
  | ret value => exact second past value first
  | call op next inductionHypothesis =>
      exact ⟨first.1, fun answer =>
        inductionHypothesis answer (first.2 answer)⟩

theorem Licensed.mono
    {program : Program Op Answer Result}
    {weaker : List (Event Op Answer) → Result → Prop}
    (licensed : Licensed licence post program past)
    (implied : ∀ later value, post later value → weaker later value) :
    Licensed licence weaker program past := by
  induction program generalizing past with
  | ret value => exact implied past value licensed
  | call op next inductionHypothesis =>
      exact ⟨licensed.1, fun answer =>
        inductionHypothesis answer (licensed.2 answer)⟩

/-- A program under a licence that is always given. -/
theorem licensed_of_forall
    (allowed : ∀ later op, licence later op)
    (ends : ∀ later value, post later value)
    (program : Program Op Answer Result) :
    Licensed licence post program past := by
  induction program generalizing past with
  | ret value => exact ends past value
  | call op next inductionHypothesis =>
      exact ⟨allowed past op, fun answer => inductionHypothesis answer⟩

/-- A program that is licensed twice. -/
theorem Licensed.and
    {other : List (Event Op Answer) → Op → Prop}
    {ends : List (Event Op Answer) → Result → Prop}
    {program : Program Op Answer Result}
    (first : Licensed licence post program past)
    (second : Licensed other ends program past) :
    Licensed (fun past op => licence past op ∧ other past op)
      (fun past value => post past value ∧ ends past value) program
      past := by
  induction program generalizing past with
  | ret value => exact ⟨first, second⟩
  | call op next inductionHypothesis =>
      exact ⟨⟨first.1, second.1⟩, fun answer =>
        inductionHypothesis answer (first.2 answer) (second.2 answer)⟩

end Rules

/-- Every element of a list stands behind what it needs. -/
def AtEach {Item : Type} (property : List Item → Item → Prop)
    (items : List Item) : Prop :=
  ∀ before item after, items = before ++ item :: after →
    property before item

section Splits

variable {Item : Type} {property : List Item → Item → Prop}

theorem atEach_nil : AtEach property [] := by
  intro before item after split
  cases before <;> cases split

/-- Where a longer list is split. -/
theorem snoc_split {items before after : List Item} {last item : Item}
    (split : items ++ [last] = before ++ item :: after) :
    (before = items ∧ item = last ∧ after = []) ∨
      ∃ middle, after = middle ++ [last] ∧
        items = before ++ item :: middle := by
  rcases List.eq_nil_or_concat after with rfl | ⟨middle, final, rfl⟩
  · obtain ⟨rfl, same⟩ := List.append_inj' split rfl
    obtain ⟨rfl, -⟩ := List.cons.inj same
    exact Or.inl ⟨rfl, rfl, rfl⟩
  · have shape : items ++ [last] = (before ++ item :: middle) ++ [final] := by
      rw [split]
      simp
    obtain ⟨rfl, same⟩ := List.append_inj' shape rfl
    obtain ⟨rfl, -⟩ := List.cons.inj same
    exact Or.inr ⟨middle, List.concat_eq_append, rfl⟩

theorem AtEach.snoc {items : List Item} {last : Item}
    (each : AtEach property items) (holds : property items last) :
    AtEach property (items ++ [last]) := by
  intro before item after split
  rcases snoc_split split with ⟨rfl, rfl, -⟩ | ⟨middle, -, old⟩
  · exact holds
  · exact each before item middle old

/-- A list split at a position. -/
theorem split_at {items : List Item} {position : Nat} {item : Item}
    (found : items[position]? = some item) :
    items = items.take position ++ item :: items.drop (position + 1) := by
  obtain ⟨bound, rfl⟩ := List.getElem?_eq_some_iff.mp found
  rw [← List.drop_eq_getElem_cons bound, List.take_append_drop]

/-- Of two elements of a list, one stands behind the other. -/
theorem split_order {before after earlier later : List Item}
    {item other : Item} (apart : item ≠ other)
    (same : before ++ item :: after = earlier ++ other :: later) :
    other ∈ after ∨
      ∃ middle, before = earlier ++ other :: middle ∧
        later = middle ++ item :: after := by
  rcases List.append_eq_append_iff.mp same with
    ⟨middle, rfl, rest⟩ | ⟨middle, rfl, rest⟩
  · cases middle with
    | nil => exact absurd (List.cons.inj rest).1 apart
    | cons first middle =>
        rw [(List.cons.inj rest).2]
        exact Or.inl (List.mem_append_right _ List.mem_cons_self)
  · cases middle with
    | nil => exact absurd (List.cons.inj rest).1.symm apart
    | cons first middle =>
        obtain ⟨rfl, rfl⟩ := List.cons.inj rest
        exact Or.inr ⟨middle, rfl, rfl⟩

/-- What is behind the last element that fails a test. -/
theorem rtakeWhile_split {test : Item → Bool} {before after : List Item}
    {item : Item} (fails : test item = false)
    (holds : ∀ other ∈ after, test other = true) :
    (before ++ item :: after).rtakeWhile test = after := by
  have reversed : ∀ other ∈ after.reverse, test other = true := by
    simpa using holds
  rw [List.rtakeWhile, List.reverse_append, List.reverse_cons,
    List.append_assoc, List.takeWhile_append_of_pos reversed]
  simp [fails]

/-- What holds behind a member holds of the whole list, where it lasts. -/
theorem AtEach.of_mem {items : List Item} (each : AtEach property items)
    {item : Item} (member : item ∈ items) :
    ∃ before after, items = before ++ item :: after ∧
      property before item := by
  obtain ⟨before, after, split⟩ := List.append_of_mem member
  exact ⟨before, after, split, each before item after split⟩

end Splits

/-- An operation that was performed, and by which thread. -/
structure Performed (Op : Type) (Answer : Op → Type) (Label : Type) where
  label : Label
  event : Event Op Answer

/-- A world, and all that was performed so far, oldest first. -/
structure Recorded
    (Op : Type) (Answer : Op → Type) (Label World : Type) where
  world : World
  history : List (Performed Op Answer Label) := []

/-- The machine with its history. -/
def Machine.recorded
    (machine : Machine Op Answer Value Label World Choice Outside) :
    Machine Op Answer Value Label (Recorded Op Answer Label World)
      Choice Outside where
  program := machine.program
  handle := fun label op choice recorded =>
    (machine.handle label op choice recorded.world).map fun outcome =>
      (outcome.1,
        ⟨outcome.2, recorded.history ++ [⟨label, ⟨op, outcome.1⟩⟩]⟩)
  react := fun event recorded =>
    { recorded with world := machine.react event recorded.world }

/-- What a thread has contributed to a history. -/
def ownEvents [DecidableEq Label] (label : Label)
    (history : List (Performed Op Answer Label)) :
    List (Event Op Answer) :=
  (history.filter fun performed => performed.label = label).map
    Performed.event

section Own

variable [DecidableEq Label] {label : Label}
variable {history : List (Performed Op Answer Label)}

theorem mem_ownEvents {event : Event Op Answer} :
    event ∈ ownEvents label history ↔ ⟨label, event⟩ ∈ history := by
  rw [ownEvents, List.mem_map]
  constructor
  · rintro ⟨performed, member, rfl⟩
    obtain ⟨listed, same⟩ := List.mem_filter.mp member
    rw [← of_decide_eq_true same]
    exact listed
  · intro listed
    exact ⟨⟨label, event⟩, by simp [listed], rfl⟩

theorem ownEvents_append (first second : List (Performed Op Answer Label)) :
    ownEvents label (first ++ second) =
      ownEvents label first ++ ownEvents label second := by
  simp [ownEvents]

theorem ownEvents_self (event : Event Op Answer) :
    ownEvents label [⟨label, event⟩] = [event] := by
  simp [ownEvents]

theorem ownEvents_other {other : Label} (apart : other ≠ label)
    (event : Event Op Answer) :
    ownEvents label [⟨other, event⟩] = [] := by
  simp [ownEvents, apart]

end Own

/-! ## Runs of recorded machines -/

section Runs

variable {machine : Machine Op Answer Value Label World Choice Outside}

/-- What a recorded machine has performed is what was handled, and is
written down. -/
theorem recorded_handle
    {label : Label} {op : Op} {choice : Choice} {answer : Answer op}
    {before after : Recorded Op Answer Label World}
    (handled : machine.recorded.handle label op choice before =
      some (answer, after)) :
    machine.handle label op choice before.world =
        some (answer, after.world) ∧
      after.history = before.history ++ [⟨label, ⟨op, answer⟩⟩] := by
  obtain ⟨outcome, found, same⟩ := Option.map_eq_some_iff.mp handled
  obtain ⟨rfl, rfl⟩ := Prod.mk.inj same
  exact ⟨found, rfl⟩

/-- The choice, the thread and the operation of a move that performs
one. -/
def advancing (pool : Pool Op Answer Value Label World) :
    Action Label Choice Outside → Option (Choice × Label × Op)
  | .advance index choice =>
      (pool.threads[index]?.bind Thread.upcoming).map fun upcoming =>
        (choice, upcoming)
  | _ => none

/-- A condition on the operations that are performed. -/
def OnAdvance (condition : World → Choice → Label → Op → Prop)
    (pool : Pool Op Answer Value Label World)
    (action : Action Label Choice Outside) : Prop :=
  ∀ next ∈ advancing pool action,
    condition pool.world next.1 next.2.1 next.2.2

instance (condition : World → Choice → Label → Op → Prop)
    [∀ world choice label op, Decidable (condition world choice label op)]
    (pool : Pool Op Answer Value Label World)
    (action : Action Label Choice Outside) :
    Decidable (OnAdvance condition pool action) :=
  inferInstanceAs (Decidable (∀ next ∈ advancing pool action, _))

/-- A condition that asks nothing. -/
theorem meets_anything (actions : List (Action Label Choice Outside))
    (pool : Pool Op Answer Value Label
      (Recorded Op Answer Label World)) :
    Runs.Meets machine.recorded.step (OnAdvance fun _ _ _ _ => True)
      actions pool := by
  induction actions generalizing pool with
  | nil => exact trivial
  | cons action rest inductionHypothesis =>
      exact ⟨fun _ _ => trivial, inductionHypothesis _⟩

variable [DecidableEq Label]

/-- Everything in the history was licensed when it was performed. -/
def Lawful (licence : Label → List (Event Op Answer) → Op → Prop)
    (history : List (Performed Op Answer Label)) : Prop :=
  AtEach
    (fun before performed =>
      licence performed.label (ownEvents performed.label before)
        performed.event.op)
    history

/-- The pool of a recorded machine: threads are told apart by their
labels, have done what the history says, and are licensed. -/
structure Accounted
    (licence : Label → List (Event Op Answer) → Op → Prop)
    (post : Label → List (Event Op Answer) → Value → Prop)
    (pool : Pool Op Answer Value Label
      (Recorded Op Answer Label World)) : Prop where
  labels : (pool.threads.map Thread.label).Nodup
  started : ∀ thread ∈ pool.threads, thread.label ∈ pool.started
  past : ∀ thread ∈ pool.threads,
    thread.past = ownEvents thread.label pool.world.history
  authors : ∀ performed ∈ pool.world.history,
    performed.label ∈ pool.started
  lawful : Lawful licence pool.world.history
  licensed : ∀ thread ∈ pool.threads,
    Licensed (licence thread.label) (post thread.label) thread.rest
      thread.past

variable {licence : Label → List (Event Op Answer) → Op → Prop}
variable {post : Label → List (Event Op Answer) → Value → Prop}

theorem accounted_idle (world : World) :
    Accounted licence post
      (.idle ⟨world, []⟩ : Pool Op Answer Value Label
        (Recorded Op Answer Label World)) where
  labels := List.nodup_nil
  started := fun _ member => (by cases member)
  past := fun _ member => (by cases member)
  authors := fun _ member => (by cases member)
  lawful := atEach_nil
  licensed := fun _ member => (by cases member)

/-- A move that starts nothing under a label that was used. -/
def FreshStart (pool : Pool Op Answer Value Label World)
    (action : Action Label Choice Outside) : Prop :=
  ∀ label, action = .start label → label ∉ pool.started

/-- What is known of the operation that a recorded pool performs next. -/
structure Accounts
    (machine : Machine Op Answer Value Label World Choice Outside)
    (licence : Label → List (Event Op Answer) → Op → Prop)
    (before after : Recorded Op Answer Label World)
    (label : Label) (op : Op) (choice : Choice) (answer : Answer op) :
    Prop where
  handled : machine.handle label op choice before.world =
    some (answer, after.world)
  history : after.history = before.history ++ [⟨label, ⟨op, answer⟩⟩]
  lawful : Lawful licence before.history
  licensed : licence label (ownEvents label before.history) op

theorem Accounted.accounts
    {pool : Pool Op Answer Value Label (Recorded Op Answer Label World)}
    (accounted : Accounted licence post pool)
    {index : Nat} {choice : Choice} {label : Label}
    {past : List (Event Op Answer)} {op : Op}
    {next : Answer op → Program Op Answer Value} {answer : Answer op}
    {after : Recorded Op Answer Label World}
    (performs : machine.recorded.Performs pool index choice label past op
      next answer after) :
    Accounts machine licence pool.world after label op choice answer := by
  obtain ⟨handled, history⟩ := recorded_handle performs.handled
  have member := List.mem_of_getElem? performs.thread
  have same := accounted.past _ member
  have allowed := (accounted.licensed _ member).1
  rw [same] at allowed
  exact ⟨handled, history, accounted.lawful, allowed⟩

/-- Every move keeps a pool accounted for. -/
theorem Accounted.step
    (programs : ∀ label,
      Licensed (licence label) (post label) (machine.program label) [])
    {pool : Pool Op Answer Value Label (Recorded Op Answer Label World)}
    (accounted : Accounted licence post pool)
    {action : Action Label Choice Outside}
    (starts : FreshStart pool action) :
    Accounted licence post (machine.recorded.step action pool) := by
  cases action with
  | start label =>
      have unused : label ∉ pool.started := starts label rfl
      refine ⟨?_, ?_, ?_, ?_, accounted.lawful, ?_⟩
      · have distinct : ∀ thread ∈ pool.threads,
            thread.label ≠ label := by
          intro thread member same
          exact unused (same ▸ accounted.started thread member)
        simpa [Machine.step, List.nodup_append] using
          And.intro accounted.labels distinct
      · intro thread member
        rcases List.mem_append.mp member with old | new
        · exact List.mem_append_left _ (accounted.started thread old)
        · rw [List.mem_singleton.mp new]
          exact List.mem_append_right _ (List.mem_singleton_self label)
      · intro thread member
        rcases List.mem_append.mp member with old | new
        · exact accounted.past thread old
        · rw [List.mem_singleton.mp new]
          have none : ∀ event : Event Op Answer,
              event ∉ ownEvents label pool.world.history := by
            intro event listed
            exact unused (accounted.authors _ (mem_ownEvents.mp listed))
          exact (List.eq_nil_iff_forall_not_mem.mpr none).symm
      · intro performed member
        exact List.mem_append_left _ (accounted.authors performed member)
      · intro thread member
        rcases List.mem_append.mp member with old | new
        · exact accounted.licensed thread old
        · rw [List.mem_singleton.mp new]
          exact programs label
  | advance index choice =>
      rcases machine.recorded.advance_cases pool index choice with
        ⟨label, past, op, next, answer, after, performs⟩ | same
      · obtain ⟨-, history⟩ := recorded_handle performs.handled
        have own := List.mem_of_getElem? performs.thread
        have labels := map_label_set performs.thread
          ⟨label, past ++ [⟨op, answer⟩], next answer⟩ rfl
        have begun := accounted.started _ own
        have moved : ∀ thread ∈ pool.threads.set index
            ⟨label, past ++ [⟨op, answer⟩], next answer⟩,
            thread = ⟨label, past ++ [⟨op, answer⟩], next answer⟩ ∨
              thread ∈ pool.threads ∧ label ≠ thread.label := by
          intro thread member
          obtain ⟨other, found⟩ := List.mem_iff_getElem?.mp member
          by_cases apart : index = other
          · subst apart
            have bound := (List.getElem?_eq_some_iff.mp performs.thread).1
            rw [List.getElem?_set_self bound] at found
            exact Or.inl (Option.some.inj found).symm
          · rw [List.getElem?_set_ne apart] at found
            exact Or.inr ⟨List.mem_of_getElem? found,
              label_ne_of_index_ne accounted.labels performs.thread found
                apart⟩
        rw [Machine.step_of_performs performs]
        refine ⟨labels.symm ▸ accounted.labels, ?_, ?_, ?_, ?_, ?_⟩
        · intro thread member
          rcases moved thread member with rfl | ⟨old, -⟩
          · exact begun
          · exact accounted.started thread old
        · intro thread member
          change thread.past = ownEvents thread.label after.history
          rw [history, ownEvents_append]
          rcases moved thread member with rfl | ⟨old, apart⟩
          · rw [ownEvents_self]
            exact congrArg (· ++ [⟨op, answer⟩]) (accounted.past _ own)
          · rw [ownEvents_other apart, List.append_nil]
            exact accounted.past thread old
        · intro performed member
          change performed ∈ after.history at member
          rw [history] at member
          rcases List.mem_append.mp member with old | new
          · exact accounted.authors performed old
          · rw [List.mem_singleton.mp new]
            exact begun
        · change Lawful licence after.history
          rw [history]
          exact accounted.lawful.snoc (accounted.accounts performs).licensed
        · intro thread member
          rcases moved thread member with rfl | ⟨old, -⟩
          · exact (accounted.licensed _ own).2 answer
          · exact accounted.licensed thread old
      · rw [same]
        exact accounted
  | cut index =>
      refine ⟨?_, ?_, ?_, accounted.authors, accounted.lawful, ?_⟩
      · exact accounted.labels.sublist
          ((List.eraseIdx_sublist _ _).map _)
      · intro thread member
        exact accounted.started thread (List.mem_of_mem_eraseIdx member)
      · intro thread member
        exact accounted.past thread (List.mem_of_mem_eraseIdx member)
      · intro thread member
        exact accounted.licensed thread (List.mem_of_mem_eraseIdx member)
  | outside event =>
      exact ⟨accounted.labels, accounted.started, accounted.past,
        accounted.authors, accounted.lawful, accounted.licensed⟩

/-- An invariant of what is recorded that every licensed operation keeps
holds, beside the account, at the end of every run that meets the
condition. -/
theorem recorded_invariant
    {invariant : Recorded Op Answer Label World → Prop}
    {condition :
      Recorded Op Answer Label World → Choice → Label → Op → Prop}
    (programs : ∀ label,
      Licensed (licence label) (post label) (machine.program label) [])
    (performed : ∀ before after label op choice answer,
      condition before choice label op → invariant before →
      Accounts machine licence before after label op choice answer →
        invariant after)
    (reacted : ∀ event recorded, invariant recorded →
      invariant (machine.recorded.react event recorded))
    {actions : List (Action Label Choice Outside)}
    {pool : Pool Op Answer Value Label (Recorded Op Answer Label World)}
    (accounted : Accounted licence post pool)
    (initial : invariant pool.world)
    (fresh : Runs.Meets machine.recorded.step FreshStart actions pool)
    (meets : Runs.Meets machine.recorded.step (OnAdvance condition)
      actions pool) :
    Accounted licence post (Runs.run machine.recorded.step actions pool) ∧
      invariant (Runs.run machine.recorded.step actions pool).world := by
  induction actions generalizing pool with
  | nil => exact ⟨accounted, initial⟩
  | cons action rest inductionHypothesis =>
      obtain ⟨starts, freshLater⟩ := fresh
      obtain ⟨allowed, later⟩ := meets
      refine inductionHypothesis (accounted.step programs starts) ?_
        freshLater later
      cases action with
      | start label => exact initial
      | cut index => exact initial
      | outside event => exact reacted event pool.world initial
      | advance index choice =>
          rcases machine.recorded.advance_cases pool index choice with
            ⟨label, past, op, next, answer, after, performs⟩ | same
          · rw [Machine.step_of_performs performs]
            have upcoming : (choice, label, op) ∈
                advancing pool (.advance index choice :
                  Action Label Choice Outside) := by
              simp [advancing, performs.thread, Thread.upcoming]
            exact performed pool.world after label op choice answer
              (allowed _ upcoming) initial (accounted.accounts performs)
          · rw [same]
            exact initial

end Runs

end EffectPrograms
