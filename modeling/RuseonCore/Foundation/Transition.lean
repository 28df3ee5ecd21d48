import Mathlib.Tactic

/-!
# Runs of a labelled transition function

A transition function maps a state and a label to the next state, or to `none`
when the label is not enabled.  All nondeterminism of a modelled component
(scheduling, iteration order, outcome of an external call) is carried by its
labels, so that a run is determined by its start state and its label list.

The rules below are the only inductions over runs used by the development:
invariants, invariants that also mention the labels taken so far or the input
they have brought, invariants under a condition that every step meets, exact
characterizations of the runs along which a property survives, and simulations
of one transition function by another.
-/

namespace RuseonCore
namespace Transition

/-- State reached by taking the labels in turn, when every one is enabled. -/
def run (step : State → Label → Option State) :
    State → List Label → Option State
  | state, [] => some state
  | state, label :: labels =>
      (step state label).bind fun next => run step next labels

/-- Every step of the run meets the condition in the state before it. -/
def Meets
    (step : State → Label → Option State)
    (condition : State → Label → Prop) :
    State → List Label → Prop
  | _, [] => True
  | state, label :: labels =>
      condition state label ∧
        ∀ next, step state label = some next →
          Meets step condition next labels

/-- The property holds in every state that the run visits. -/
def Always
    (step : State → Label → Option State)
    (property : State → Prop) :
    State → List Label → Prop
  | state, [] => property state
  | state, label :: labels =>
      property state ∧
        ∀ next, step state label = some next →
          Always step property next labels

/-- Meeting a decidable condition along a run is decidable by evaluating the
run. -/
instance decidableMeets
    (step : State → Label → Option State)
    (condition : State → Label → Prop)
    [∀ state label, Decidable (condition state label)] :
    (state : State) → (labels : List Label) →
      Decidable (Meets step condition state labels)
  | _, [] => isTrue trivial
  | state, label :: labels =>
      match taken : step state label with
      | none => decidable_of_iff (condition state label) (by simp [Meets, taken])
      | some next =>
          have := decidableMeets step condition next labels
          decidable_of_iff
            (condition state label ∧ Meets step condition next labels)
            (by simp [Meets, taken])

section Basic

variable {step : State → Label → Option State}

@[simp] theorem run_nil (state : State) :
    run step state [] = some state := rfl

@[simp] theorem run_cons
    (state : State)
    (label : Label)
    (labels : List Label) :
    run step state (label :: labels) =
      (step state label).bind fun next => run step next labels := rfl

/-- A run over a nonempty label list passes through the state after its first
step. -/
theorem run_cons_eq_some
    {state finish : State}
    {label : Label}
    {labels : List Label} :
    run step state (label :: labels) = some finish ↔
      ∃ next, step state label = some next ∧
        run step next labels = some finish := by
  rw [run_cons, Option.bind_eq_some_iff]

theorem run_append
    (start : State)
    (earlier later : List Label) :
    run step start (earlier ++ later) =
      (run step start earlier).bind fun middle => run step middle later := by
  induction earlier generalizing start with
  | nil => rfl
  | cons label earlier inductionHypothesis =>
      rw [List.cons_append, run_cons, run_cons, Option.bind_assoc]
      exact Option.bind_congr fun next _ => inductionHypothesis next

/-- A condition is met along a run exactly if it is met up to a state on the run
and from there on. -/
theorem meets_append
    {condition : State → Label → Prop}
    {start middle : State}
    {earlier later : List Label}
    (reached : run step start earlier = some middle) :
    Meets step condition start (earlier ++ later) ↔
      Meets step condition start earlier ∧ Meets step condition middle later := by
  induction earlier generalizing start with
  | nil =>
      simp only [run_nil, Option.some.injEq] at reached
      simp [Meets, reached]
  | cons label earlier inductionHypothesis =>
      obtain ⟨next, taken, rest⟩ := run_cons_eq_some.mp reached
      simp only [List.cons_append, Meets, taken, Option.some.injEq, forall_eq',
        inductionHypothesis rest, and_assoc]

/-- A transition function that is always enabled folds over the labels. -/
theorem run_total
    (next : State → Label → State)
    (start : State)
    (labels : List Label) :
    run (fun state label => some (next state label)) start labels =
      some (labels.foldl next start) := by
  induction labels generalizing start with
  | nil => rfl
  | cons label labels inductionHypothesis =>
      exact inductionHypothesis (next start label)

end Basic

section Rules

variable {step : State → Label → Option State}
variable {condition : State → Label → Prop}

/-- A property that every step preserves under the condition holds at the end
of every run whose steps meet the condition. -/
theorem Meets.invariant
    {property : State → Prop}
    (preserved : ∀ state label next, property state →
      condition state label → step state label = some next →
      property next)
    {start finish : State}
    {labels : List Label}
    (meets : Meets step condition start labels)
    (initial : property start)
    (reached : run step start labels = some finish) :
    property finish := by
  induction labels generalizing start with
  | nil =>
      simp only [run_nil, Option.some.injEq] at reached
      exact reached ▸ initial
  | cons label labels inductionHypothesis =>
      obtain ⟨next, taken, rest⟩ := run_cons_eq_some.mp reached
      exact inductionHypothesis (meets.2 next taken)
        (preserved start label next initial meets.1 taken) rest

/-- A condition that follows from the property is met as long as the property
holds. -/
theorem Always.meets
    {property : State → Prop}
    (implies : ∀ state label, property state → condition state label)
    {start : State}
    {labels : List Label}
    (always : Always step property start labels) :
    Meets step condition start labels := by
  induction labels generalizing start with
  | nil => trivial
  | cons label labels inductionHypothesis =>
      exact ⟨implies start label always.1,
        fun next taken => inductionHypothesis (always.2 next taken)⟩

/-- What follows from a property and an invariant holds as long as the property
does. -/
theorem Always.imp
    {invariant property other : State → Prop}
    (invariantStep : ∀ state label next, invariant state →
      step state label = some next → invariant next)
    (implies : ∀ state, invariant state → property state → other state)
    {start : State}
    {labels : List Label}
    (initial : invariant start)
    (always : Always step property start labels) :
    Always step other start labels := by
  induction labels generalizing start with
  | nil => exact implies start initial always
  | cons label labels inductionHypothesis =>
      exact ⟨implies start initial always.1, fun next taken =>
        inductionHypothesis (invariantStep start label next initial taken)
          (always.2 next taken)⟩

/-- A condition that holds for every step is met by every run. -/
theorem meets_of_forall
    (holds : ∀ state label, condition state label)
    (start : State)
    (labels : List Label) :
    Meets step condition start labels := by
  induction labels generalizing start with
  | nil => trivial
  | cons label labels inductionHypothesis =>
      exact ⟨holds start label, fun next _ => inductionHypothesis next⟩

/-- A property that every step preserves holds at the end of every run. -/
theorem run_invariant
    {property : State → Prop}
    (preserved : ∀ state label next, property state →
      step state label = some next → property next)
    {start finish : State}
    {labels : List Label}
    (initial : property start)
    (reached : run step start labels = some finish) :
    property finish := by
  have unconditional : Meets step (fun _ _ => True) start labels :=
    meets_of_forall (fun _ _ => trivial) start labels
  refine unconditional.invariant ?_ initial reached
  intro state label next holds _ taken
  exact preserved state label next holds taken

/-- What follows from an invariant that every step keeps under the condition holds
all along every run whose steps meet the condition. -/
theorem Meets.always
    {invariant property : State → Prop}
    (preserved : ∀ state label next, invariant state →
      condition state label → step state label = some next → invariant next)
    (implies : ∀ state, invariant state → property state)
    {start : State}
    {labels : List Label}
    (meets : Meets step condition start labels)
    (initial : invariant start) :
    Always step property start labels := by
  induction labels generalizing start with
  | nil => exact implies start initial
  | cons label labels inductionHypothesis =>
      refine ⟨implies start initial, fun next taken => ?_⟩
      exact inductionHypothesis (meets.2 next taken)
        (preserved start label next initial meets.1 taken)

/-- What follows from an invariant holds all along every run. -/
theorem always_of_invariant
    {invariant property : State → Prop}
    (preserved : ∀ state label next, invariant state →
      step state label = some next → invariant next)
    (implies : ∀ state, invariant state → property state)
    {start : State}
    (initial : invariant start)
    (labels : List Label) :
    Always step property start labels := by
  have unconditional : Meets step (fun _ _ => True) start labels :=
    meets_of_forall (fun _ _ => trivial) start labels
  refine unconditional.always ?_ implies initial
  intro state label next holds _ taken
  exact preserved state label next holds taken

/-- An invariant may also mention the labels taken so far. -/
theorem run_invariant_history
    {property : List Label → State → Prop}
    (preserved : ∀ history state label next, property history state →
      step state label = some next → property (history ++ [label]) next)
    {start finish : State}
    {history labels : List Label}
    (initial : property history start)
    (reached : run step start labels = some finish) :
    property (history ++ labels) finish := by
  induction labels generalizing start history with
  | nil =>
      simp only [run_nil, Option.some.injEq] at reached
      rw [List.append_nil]
      exact reached ▸ initial
  | cons label labels inductionHypothesis =>
      obtain ⟨next, taken, rest⟩ := run_cons_eq_some.mp reached
      have later := inductionHypothesis
        (preserved history start label next initial taken) rest
      simpa using later

/-- An invariant may mention the input that the labels have brought so far, in
runs whose labels are all allowed. -/
theorem run_invariant_input
    {input : Label → Option Item}
    {allowed : Label → Prop}
    {property : List Item → State → Prop}
    (preserved : ∀ items state label next, property items state →
      allowed label → step state label = some next →
      property (items ++ (input label).toList) next)
    {start finish : State}
    {labels : List Label}
    (initial : property [] start)
    (all : ∀ label ∈ labels, allowed label)
    (reached : run step start labels = some finish) :
    property (labels.filterMap input) finish := by
  have later : ∀ history state label next,
      ((∀ earlier ∈ history, allowed earlier) →
        property (history.filterMap input) state) →
      step state label = some next →
      ((∀ earlier ∈ history ++ [label], allowed earlier) →
        property ((history ++ [label]).filterMap input) next) := by
    intro history state label next before taken allowedAll
    have single : [label].filterMap input = (input label).toList := by
      cases found : input label <;> simp [found]
    rw [List.filterMap_append, single]
    refine preserved _ state label next (before fun earlier member => ?_)
      (allowedAll label (by simp)) taken
    exact allowedAll earlier (List.mem_append_left _ member)
  have none : (∀ earlier ∈ ([] : List Label), allowed earlier) →
      property (([] : List Label).filterMap input) start := fun _ => initial
  exact run_invariant_history later none reached all

end Rules

section Exactness

variable {step : State → Label → Option State}
variable {condition : State → Label → Prop}
variable {invariant property : State → Prop}

/-- When a step keeps the property exactly if the property held before it and
the step meets the condition, a run ends in the property exactly if all of its
steps meet the condition. -/
theorem holds_iff_meets
    (invariantStep : ∀ state label next, invariant state →
      step state label = some next → invariant next)
    (exactStep : ∀ state label next, invariant state →
      step state label = some next →
      (property next ↔ property state ∧ condition state label))
    {start finish : State}
    {labels : List Label}
    (initialInvariant : invariant start)
    (reached : run step start labels = some finish) :
    property finish ↔
      property start ∧ Meets step condition start labels := by
  induction labels generalizing start with
  | nil =>
      simp only [run_nil, Option.some.injEq] at reached
      subst reached
      simp [Meets]
  | cons label labels inductionHypothesis =>
      obtain ⟨next, taken, rest⟩ := run_cons_eq_some.mp reached
      have nextInvariant := invariantStep start label next initialInvariant taken
      rw [inductionHypothesis nextInvariant rest,
        exactStep start label next initialInvariant taken, and_assoc]
      simp [Meets, taken]

/-- When a step from a state with the property keeps it exactly if the step
meets the condition, the property holds all along a run exactly if all of its
steps meet the condition. -/
theorem always_iff_meets
    (invariantStep : ∀ state label next, invariant state →
      step state label = some next → invariant next)
    (exactStep : ∀ state label next, invariant state → property state →
      step state label = some next →
      (property next ↔ condition state label))
    {start finish : State}
    {labels : List Label}
    (initialInvariant : invariant start)
    (initial : property start)
    (reached : run step start labels = some finish) :
    Always step property start labels ↔
      Meets step condition start labels := by
  induction labels generalizing start with
  | nil => simp [Always, Meets, initial]
  | cons label labels inductionHypothesis =>
      obtain ⟨next, taken, rest⟩ := run_cons_eq_some.mp reached
      have nextInvariant := invariantStep start label next initialInvariant taken
      have exact := exactStep start label next initialInvariant initial taken
      simp only [Always, Meets, taken, Option.some.injEq, forall_eq', initial,
        true_and]
      constructor
      · intro always
        have nextHolds : property next := by
          cases labels with
          | nil => exact always
          | cons => exact always.1
        exact ⟨exact.mp nextHolds,
          (inductionHypothesis nextInvariant nextHolds rest).mp always⟩
      · rintro ⟨met, later⟩
        exact (inductionHypothesis nextInvariant (exact.mpr met) rest).mpr later

/-- A property that needs no other invariant. -/
theorem always_iff_meets_of_exact
    (exactStep : ∀ state label next, property state →
      step state label = some next →
      (property next ↔ condition state label))
    {start finish : State}
    {labels : List Label}
    (initial : property start)
    (reached : run step start labels = some finish) :
    Always step property start labels ↔
      Meets step condition start labels := by
  have anyState : ∀ state label next, True → step state label = some next → True :=
    fun _ _ _ _ _ => trivial
  exact always_iff_meets anyState
    (fun state label next _ holds taken => exactStep state label next holds taken)
    trivial initial reached

/-- A condition that follows from another one, on the steps from states with an
invariant, is met by every run that meets the other one. -/
theorem Meets.imp
    {other : State → Label → Prop}
    (preserved : ∀ state label next, invariant state → condition state label →
      step state label = some next → invariant next)
    (implies : ∀ state label next, invariant state → condition state label →
      step state label = some next → other state label)
    {start finish : State}
    {labels : List Label}
    (initial : invariant start)
    (reached : run step start labels = some finish)
    (meets : Meets step condition start labels) :
    Meets step other start labels := by
  induction labels generalizing start with
  | nil => trivial
  | cons label labels inductionHypothesis =>
      obtain ⟨next, taken, rest⟩ := run_cons_eq_some.mp reached
      refine ⟨implies start label next initial meets.1 taken, fun after stepped => ?_⟩
      obtain rfl := Option.some.inj (taken.symm.trans stepped)
      exact inductionHypothesis (preserved start label next initial meets.1 taken) rest
        (meets.2 next taken)

end Exactness

section Simulation

variable {step : State → Label → Option State}
variable {abstractStep : Abstract → Observation → Option Abstract}

/-- What a run shows: each step contributes the observations it makes in the
state before it. -/
def trace
    (step : State → Label → Option State)
    (view : State → Label → List Observation) :
    State → List Label → List Observation
  | _, [] => []
  | state, label :: labels =>
      view state label ++
        match step state label with
        | some next => trace step view next labels
        | none => []

/-- An invariant may mention what the run has shown so far. -/
theorem run_invariant_trace
    {view : State → Label → List Observation}
    {property : List Observation → State → Prop}
    (preserved : ∀ seen state label next, property seen state →
      step state label = some next → property (seen ++ view state label) next)
    {start finish : State}
    {labels : List Label}
    {seen : List Observation}
    (initial : property seen start)
    (reached : run step start labels = some finish) :
    property (seen ++ trace step view start labels) finish := by
  induction labels generalizing start seen with
  | nil =>
      rw [trace, List.append_nil]
      exact Option.some.inj reached ▸ initial
  | cons label labels inductionHypothesis =>
      obtain ⟨next, taken, rest⟩ := run_cons_eq_some.mp reached
      have later := inductionHypothesis (preserved seen start label next initial taken) rest
      simpa only [trace, taken, List.append_assoc] using later

/-- When the abstract system can answer every step by taking the observations
that the step shows, a run is answered by the run over its trace. -/
theorem run_simulation
    {view : State → Label → List Observation}
    {relation : State → Abstract → Prop}
    (simulated : ∀ state label next abstract, relation state abstract →
      step state label = some next →
      ∃ abstractNext,
        run abstractStep abstract (view state label) = some abstractNext ∧
          relation next abstractNext)
    {start finish : State}
    {abstract : Abstract}
    {labels : List Label}
    (initial : relation start abstract)
    (reached : run step start labels = some finish) :
    ∃ abstractFinish,
      run abstractStep abstract (trace step view start labels) =
          some abstractFinish ∧
        relation finish abstractFinish := by
  induction labels generalizing start abstract with
  | nil =>
      simp only [run_nil, Option.some.injEq] at reached
      exact ⟨abstract, rfl, reached ▸ initial⟩
  | cons label labels inductionHypothesis =>
      obtain ⟨next, taken, rest⟩ := run_cons_eq_some.mp reached
      obtain ⟨abstractNext, answered, related⟩ :=
        simulated start label next abstract initial taken
      obtain ⟨abstractFinish, later, finished⟩ := inductionHypothesis related rest
      refine ⟨abstractFinish, ?_, finished⟩
      simp only [trace, taken, run_append, answered, Option.bind_some]
      exact later

end Simulation

end Transition
end RuseonCore
