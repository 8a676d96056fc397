import Mathlib.Data.List.Basic

namespace GuestKernel
open List Option

/-!
# Labelled machines, runs and loop rules

Every subsystem of the guest kernel is presented as a machine: a set of
initial states and a labelled step relation.  This module packages the
induction over runs once, so that a safety result is the pair of an initial
fact and a step fact.

The C loops over pages, locks and components become folds in the `Option`
monad, where `none` is undefined behaviour or a failed assertion.  The loop
rules below are the corresponding induction principles.
-/

/-- Initial states and labelled steps of one subsystem. -/
structure Machine (State Action : Type) where
  initial : State → Prop
  step : State → Action → State → Prop

namespace Machine

variable {State Action : Type}

/-- States some finite run of the machine ends in. -/
inductive Reachable (machine : Machine State Action) : State → Prop where
  | initial {state : State} :
      machine.initial state →
      Reachable machine state
  | step {state next : State} {a : Action} :
      Reachable machine state →
      machine.step state a next →
      Reachable machine next

/-- Keep only the steps that satisfy a condition on state and label. -/
def restrict
    (machine : Machine State Action)
    (allowed : State → Action → Prop) : Machine State Action where
  initial := machine.initial
  step state action next :=
    allowed state action ∧ machine.step state action next

namespace Reachable

/-- An initial fact kept by every step holds in every reachable state. -/
theorem invariant
    {machine : Machine State Action}
    {motive : State → Prop}
    (start : ∀ {state}, machine.initial state → motive state)
    (keep :
      ∀ {state action next},
        motive state →
        machine.step state action next →
        motive next)
    {state : State}
    (reachable : Reachable machine state) :
    motive state := by
  induction reachable with
  | initial isInitial =>
    exact start isInitial
  | step _ taken inductionHypothesis =>
    exact keep inductionHypothesis taken

theorem of_restrict
    {machine : Machine State Action}
    {allowed : State → Action → Prop}
    {state : State}
    (reachable : Reachable (machine.restrict allowed) state) :
    Reachable machine state := by
  induction reachable with
  | initial isInitial =>
    exact .initial isInitial
  | step _ taken inductionHypothesis =>
    exact .step inductionHypothesis taken.2

/-- Running a list of actions from a reachable state reaches its end. -/
theorem foldlM
    {machine : Machine State Action}
    (run : State → Action → Option State)
    (sound :
      ∀ {state action next},
        run state action = some next →
        machine.step state action next)
    {actions : List Action}
    {state last : State}
    (reachable : Reachable machine state)
    (ran : actions.foldlM run state = some last) :
    Reachable machine last := by
  induction actions generalizing state with
  | nil =>
    cases ran
    exact reachable
  | cons action rest inductionHypothesis =>
    rw [foldlM_cons] at ran
    obtain ⟨next, first, later⟩ := bind_eq_some_iff.mp ran
    exact inductionHypothesis (reachable.step (sound first)) later

end Reachable

end Machine

section

variable
  {Key Value : Type}
  [DecidableEq Key]
  {table : Key → Option Value}
  {key other : Key}
  {value entry : Value}

theorem eq_some_of_update
    (isThere : Function.update table key (some value) other = some entry) :
    other = key ∧ entry = value ∨ other ≠ key ∧ table other = some entry := by
  by_cases same : other = key
  · rw [same, Function.update_self] at isThere
    exact .inl ⟨same, (some.inj isThere).symm⟩
  · exact .inr ⟨same, by rwa [Function.update_of_ne same] at isThere⟩

theorem ne_of_update_none
    (isThere : Function.update table key none other = some entry) :
    other ≠ key := by
  rintro rfl
  rw [Function.update_self] at isThere
  cases isThere

theorem eq_some_of_update_none
    (isThere : Function.update table key none other = some entry) :
    table other = some entry := by
  rwa [Function.update_of_ne (ne_of_update_none isThere)] at isThere

end

namespace Loop

variable {State Item : Type}

/-- A property kept by every round of a loop is kept by the whole loop. -/
theorem foldlM_invariant
    {body : State → Item → Option State}
    {motive : State → Prop}
    {items : List Item}
    (keep :
      ∀ {state item next},
        item ∈ items →
        motive state →
        body state item = some next →
        motive next)
    {state last : State}
    (start : motive state)
    (run : items.foldlM body state = some last) :
    motive last := by
  induction items generalizing state with
  | nil =>
    cases run
    exact start
  | cons item rest inductionHypothesis =>
    rw [foldlM_cons] at run
    obtain ⟨next, firstRound, restRun⟩ :=
      bind_eq_some_iff.mp run
    exact inductionHypothesis
      (fun member => keep (mem_cons_of_mem _ member))
      (keep mem_cons_self start firstRound)
      restRun

/--
The indexed form of the loop rule: the property may mention the items the loop
has already gone through.
-/
theorem foldlM_prefix
    {body : State → Item → Option State}
    {motive : List Item → State → Prop}
    {items : List Item}
    (keep :
      ∀ {done item later state next},
        items = done ++ item :: later →
        motive done state →
        body state item = some next →
        motive (done ++ [item]) next)
    {state last : State}
    (start : motive [] state)
    (run : items.foldlM body state = some last) :
    motive items last := by
  suffices general :
      ∀ {done rest : List Item} {state : State},
        items = done ++ rest →
        motive done state →
        rest.foldlM body state = some last →
        motive items last from
    general rfl start run
  intro done rest
  induction rest generalizing done with
  | nil =>
    intro state shape holds finished
    cases finished
    simpa [shape] using holds
  | cons item rest inductionHypothesis =>
    intro state shape holds running
    rw [foldlM_cons] at running
    obtain ⟨next, firstRound, restRun⟩ :=
      bind_eq_some_iff.mp running
    exact inductionHypothesis
      (by simpa using shape)
      (keep shape holds firstRound)
      restRun

/-- The loop over the numbers below a bound. -/
theorem foldlM_range
    {body : State → Nat → Option State}
    {motive : Nat → State → Prop}
    {bound : Nat}
    (keep :
      ∀ {index state next},
        index < bound →
        motive index state →
        body state index = some next →
        motive (index + 1) next)
    {state last : State}
    (start : motive 0 state)
    (run : (List.range bound).foldlM body state = some last) :
    motive bound last := by
  induction bound generalizing last with
  | zero =>
    cases run
    exact start
  | succ bound inductionHypothesis =>
    rw [range_succ, foldlM_append] at run
    obtain ⟨middle, before, final⟩ := bind_eq_some_iff.mp run
    have reached := inductionHypothesis
      (fun less => keep (Nat.lt_succ_of_lt less)) before
    rw [foldlM_cons] at final
    obtain ⟨after, round, done⟩ := bind_eq_some_iff.mp final
    cases done
    exact keep (Nat.lt_succ_self bound) reached round

/-- A loop whose rounds always succeed succeeds. -/
theorem foldlM_isSome
    (body : State → Item → Option State)
    (items : List Item)
    (state : State)
    {motive : List Item → State → Prop}
    (round :
      ∀ {done item later state},
        items = done ++ item :: later →
        motive done state →
        ∃ next,
          body state item = some next ∧ motive (done ++ [item]) next)
    (start : motive [] state) :
    ∃ last, items.foldlM body state = some last ∧ motive items last := by
  suffices general :
      ∀ {done rest : List Item} {state : State},
        items = done ++ rest →
        motive done state →
        ∃ last,
          rest.foldlM body state = some last ∧ motive items last from
    general rfl start
  intro done rest
  induction rest generalizing done with
  | nil =>
    intro state shape holds
    exact ⟨state, rfl, by simpa [shape] using holds⟩
  | cons item rest inductionHypothesis =>
    intro state shape holds
    obtain ⟨next, firstRound, holdsNext⟩ := round shape holds
    obtain ⟨last, restRun, lastHolds⟩ :=
      inductionHypothesis (by simpa using shape) holdsNext
    refine ⟨last, ?_, lastHolds⟩
    rw [foldlM_cons, firstRound]
    exact restRun

end Loop

end GuestKernel
