import Mathlib.Data.List.Basic

/-!
# Finite runs of a state machine

A machine is a step function on states, driven by a list of actions.  A
run may be required to meet a condition that is checked, before every
action, on the state the action finds.  The rules below carry an
invariant through such runs.
-/

namespace Runs

variable {State Action : Type*}

/-- The state reached by performing the actions in order. -/
def run (step : Action → State → State) :
    List Action → State → State
  | [], state => state
  | action :: rest, state => run step rest (step action state)

/-- Every action of the list is allowed in the state it finds. -/
def Meets
    (step : Action → State → State)
    (condition : State → Action → Prop) :
    List Action → State → Prop
  | [], _ => True
  | action :: rest, state =>
      condition state action ∧
        Meets step condition rest (step action state)

variable {step : Action → State → State}
variable {condition : State → Action → Prop}

instance decidableMeets
    [∀ state action, Decidable (condition state action)] :
    ∀ actions state, Decidable (Meets step condition actions state)
  | [], _ => isTrue trivial
  | action :: rest, state =>
      have := decidableMeets rest (step action state)
      inferInstanceAs (Decidable (_ ∧ _))

@[simp]
theorem run_nil (state : State) : run step [] state = state := rfl

@[simp]
theorem run_cons
    (action : Action) (rest : List Action) (state : State) :
    run step (action :: rest) state =
      run step rest (step action state) := rfl

theorem run_append (first second : List Action) (state : State) :
    run step (first ++ second) state =
      run step second (run step first state) := by
  induction first generalizing state with
  | nil => rfl
  | cons action rest inductionHypothesis =>
      simpa using inductionHypothesis (step action state)

theorem meets_append (first second : List Action) (state : State) :
    Meets step condition (first ++ second) state ↔
      Meets step condition first state ∧
        Meets step condition second (run step first state) := by
  induction first generalizing state with
  | nil => simp [Meets]
  | cons action rest inductionHypothesis =>
      simp only [List.cons_append, Meets, run_cons,
        inductionHypothesis, and_assoc]

/-- A run without restrictions meets the condition that asks nothing. -/
theorem meets_trivial (actions : List Action) (state : State) :
    Meets step (fun _ _ => True) actions state := by
  induction actions generalizing state with
  | nil => trivial
  | cons action rest inductionHypothesis =>
      exact ⟨trivial, inductionHypothesis (step action state)⟩

/-- A condition on the actions alone. -/
theorem meets_of_forall
    {allowed : Action → Prop} {actions : List Action}
    (all : ∀ action ∈ actions, allowed action) (state : State) :
    Meets step (fun _ action => allowed action) actions state := by
  induction actions generalizing state with
  | nil => trivial
  | cons action rest inductionHypothesis =>
      obtain ⟨head, tail⟩ := List.forall_mem_cons.mp all
      exact ⟨head, inductionHypothesis tail (step action state)⟩

/-- What every allowed action preserves holds at the end of a run. -/
theorem invariant_of_meets
    {invariant : State → Prop}
    (preserved :
      ∀ state action,
        invariant state → condition state action →
          invariant (step action state))
    {actions : List Action} {state : State}
    (initial : invariant state)
    (meets : Meets step condition actions state) :
    invariant (run step actions state) := by
  induction actions generalizing state with
  | nil => exact initial
  | cons action rest inductionHypothesis =>
      obtain ⟨allowed, later⟩ := meets
      exact inductionHypothesis
        (preserved state action initial allowed) later

/-- What every action preserves holds at the end of every run. -/
theorem invariant_of_run
    {invariant : State → Prop}
    (preserved :
      ∀ state action, invariant state → invariant (step action state))
    (actions : List Action) {state : State}
    (initial : invariant state) :
    invariant (run step actions state) :=
  invariant_of_meets
    (fun state action held _ => preserved state action held)
    initial (meets_trivial actions state)

theorem Meets.take {actions : List Action} {state : State}
    (meets : Meets step condition actions state) (count : Nat) :
    Meets step condition (actions.take count) state := by
  rw [← List.take_append_drop count actions, meets_append] at meets
  exact meets.1

/-- A run meets a condition when every action is allowed in the state that
the actions before it lead to. -/
theorem meets_iff_forall_split
    {actions : List Action} {state : State} :
    Meets step condition actions state ↔
      ∀ first action rest, actions = first ++ action :: rest →
        condition (run step first state) action := by
  constructor
  · rintro meets first action rest rfl
    exact ((meets_append _ _ _).mp meets).2.1
  · intro allowed
    induction actions generalizing state with
    | nil => trivial
    | cons action rest inductionHypothesis =>
        refine ⟨allowed [] action rest rfl, inductionHypothesis ?_⟩
        rintro first next later rfl
        exact allowed (action :: first) next later rfl

/-- A condition without which the next state lacks a property is met by
the runs whose states all have it. -/
theorem meets_of_states
    {property : State → Prop}
    (necessary :
      ∀ state action, property (step action state) →
        condition state action)
    {actions : List Action} {state : State}
    (all : ∀ count, property (run step (actions.take count) state)) :
    Meets step condition actions state := by
  induction actions generalizing state with
  | nil => trivial
  | cons action rest inductionHypothesis =>
      refine ⟨necessary state action ?_, inductionHypothesis ?_⟩
      · simpa using all 1
      · intro count
        simpa using all (count + 1)

/-- A property that a step keeps exactly under a condition holds of all
states of the runs that meet the condition, and of no others.  An invariant
may depend on the property in the state before. -/
theorem states_iff_meets_of_invariant
    {invariant property : State → Prop}
    (kept :
      ∀ state action, invariant state → property state →
        invariant (step action state) ∧
          (property (step action state) ↔ condition state action))
    {actions : List Action} {state : State}
    (start : invariant state) (initial : property state) :
    (∀ count, property (run step (actions.take count) state)) ↔
      Meets step condition actions state := by
  constructor
  · intro all
    induction actions generalizing state with
    | nil => trivial
    | cons action rest inductionHypothesis =>
        obtain ⟨next, iff⟩ := kept state action start initial
        have here : property (step action state) := all 1
        exact ⟨iff.mp here,
          inductionHypothesis next here fun count => all (count + 1)⟩
  · intro meets count
    let both : State → Prop := fun state => invariant state ∧ property state
    have held : both (run step (actions.take count) state) := by
      refine @invariant_of_meets _ _ _ _ both ?_ _ _ ⟨start, initial⟩
        (meets.take count)
      rintro state action ⟨here, now⟩ allowed
      obtain ⟨next, iff⟩ := kept state action here now
      exact ⟨next, iff.mpr allowed⟩
    exact held.2

/-- The same without an invariant. -/
theorem states_iff_meets
    {property : State → Prop}
    (kept :
      ∀ state action, property state →
        (property (step action state) ↔ condition state action))
    {actions : List Action} {state : State} (initial : property state) :
    (∀ count, property (run step (actions.take count) state)) ↔
      Meets step condition actions state :=
  @states_iff_meets_of_invariant _ _ _ _ (fun _ => True) property
    (fun state action _ held => ⟨trivial, kept state action held⟩)
    actions state trivial initial

/-- An invariant that makes one condition out of another carries over
whole runs. -/
theorem meets_of_invariant
    {invariant : State → Prop} {stronger : State → Action → Prop}
    (implied :
      ∀ state action,
        invariant state → stronger state action → condition state action)
    (preserved :
      ∀ state action,
        invariant state → stronger state action →
          invariant (step action state))
    {actions : List Action} {state : State}
    (initial : invariant state)
    (meets : Meets step stronger actions state) :
    Meets step condition actions state := by
  induction actions generalizing state with
  | nil => trivial
  | cons action rest inductionHypothesis =>
      obtain ⟨allowed, later⟩ := meets
      exact ⟨implied state action initial allowed,
        inductionHypothesis (preserved state action initial allowed)
          later⟩

/-- Some actions, all of them allowed, lead from a state to the goal. -/
def Leads
    (step : Action → State → State)
    (allowed : Action → Prop) (goal : State → Prop) (state : State) : Prop :=
  ∃ actions, (∀ action ∈ actions, allowed action) ∧
    goal (run step actions state)

variable {allowed : Action → Prop} {goal middle : State → Prop}

theorem Leads.here {state : State} (reached : goal state) :
    Leads step allowed goal state :=
  ⟨[], fun _ listed => (by cases listed), reached⟩

theorem Leads.after {action : Action} {state : State}
    (first : allowed action)
    (rest : Leads step allowed goal (step action state)) :
    Leads step allowed goal state := by
  obtain ⟨actions, all, reached⟩ := rest
  exact ⟨action :: actions, List.forall_mem_cons.mpr ⟨first, all⟩, reached⟩

/-- Goals are reached one after the other. -/
theorem Leads.bind {state : State}
    (first : Leads step allowed middle state)
    (second : ∀ next, middle next → Leads step allowed goal next) :
    Leads step allowed goal state := by
  obtain ⟨actions, all, reached⟩ := first
  obtain ⟨others, allOthers, finished⟩ := second _ reached
  refine ⟨actions ++ others, List.forall_mem_append.mpr ⟨all, allOthers⟩, ?_⟩
  rw [run_append]
  exact finished

end Runs
