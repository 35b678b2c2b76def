import Mathlib.Data.Nat.Notation
import Mathlib.Logic.Basic

/-!
# Transition systems

A system is an initial state and an executable, partial step function.  The
states reachable by steps that an `allowed` predicate admits support the usual
invariant rule, and a schedule can be replayed to exhibit a reachable state.
-/

namespace KernelSeal.Transition

universe u v w

/-- An initial state and a step function that is undefined where an action is
not enabled. -/
structure System (State : Type u) (Action : Type v) where
  init : State
  step : State → Action → Option State

variable {State : Type u} {Action : Type v}

namespace System

/-- The states reached by allowed steps. -/
inductive Reachable (system : System State Action) (allowed : State → Action → Prop) :
    State → Prop
  | init : Reachable system allowed system.init
  | tail {state next : State} {action : Action} (hstate : Reachable system allowed state)
      (hallowed : allowed state action) (hstep : system.step state action = some next) :
      Reachable system allowed next

/-- Any step is allowed. -/
abbrev Unrestricted : State → Action → Prop := fun _ _ => True

variable {system : System State Action} {allowed : State → Action → Prop}

/-- What holds initially and is preserved by every allowed step holds in every
reachable state.  A step may rely on what is already known of reachable
states. -/
theorem Reachable.invariant {property : State → Prop} (hinit : property system.init)
    (hstep : ∀ state action next, Reachable system allowed state → property state →
      allowed state action → system.step state action = some next → property next)
    {state : State} (hstate : Reachable system allowed state) : property state := by
  induction hstate with
  | init => exact hinit
  | tail hstate hallowed hnext ih => exact hstep _ _ _ hstate ih hallowed hnext

section Runs

/-- A run from a state by allowed steps, with the actions it took. -/
inductive Runs (system : System State Action) (allowed : State → Action → Prop) :
    State → List Action → State → Prop
  | nil (state : State) : Runs system allowed state [] state
  | cons {state next final : State} {action : Action} {schedule : List Action}
      (hallowed : allowed state action) (hstep : system.step state action = some next)
      (hrest : Runs system allowed next schedule final) :
      Runs system allowed state (action :: schedule) final

/-- What the allowed steps preserve holds at the end of a run. -/
theorem Runs.preserves {property : State → Prop}
    (hstep : ∀ state action next, property state → allowed state action →
      system.step state action = some next → property next)
    {state final : State} {schedule : List Action}
    (hruns : Runs system allowed state schedule final) (hstate : property state) :
    property final := by
  induction hruns with
  | nil state => exact hstate
  | cons hallowed hnext hrest ih => exact ih (hstep _ _ _ hstate hallowed hnext)

/-- A run has no more steps than a measure allows that every step lowers. -/
theorem Runs.length_le {property : State → Prop} {measure : State → ℕ}
    (hstep : ∀ state action next, property state → allowed state action →
      system.step state action = some next → property next ∧ measure next < measure state)
    {state final : State} {schedule : List Action}
    (hruns : Runs system allowed state schedule final) (hstate : property state) :
    schedule.length + measure final ≤ measure state := by
  induction hruns with
  | nil state => exact Nat.le_of_eq (Nat.zero_add _)
  | @cons state next final action schedule hallowed hnext hrest ih =>
      obtain ⟨hproperty, hlower⟩ := hstep _ _ _ hstate hallowed hnext
      have hafter := ih hproperty
      rw [List.length_cons]
      omega

theorem Runs.trans {state middle final : State} {schedule rest : List Action}
    (hfirst : Runs system allowed state schedule middle)
    (hrest : Runs system allowed middle rest final) :
    Runs system allowed state (schedule ++ rest) final := by
  induction hfirst with
  | nil state => exact hrest
  | cons hallowed hnext _ ih => exact .cons hallowed hnext (ih hrest)

/-- A goal can be reached if, short of it, a measure can always be lowered by some run. -/
theorem exists_runs {property goal : State → Prop} (measure : State → ℕ)
    (hprogress : ∀ state, property state → ¬ goal state → ∃ schedule next,
      Runs system allowed state schedule next ∧ property next ∧ measure next < measure state)
    {state : State} (hstate : property state) :
    ∃ schedule final, Runs system allowed state schedule final ∧ property final ∧ goal final := by
  by_cases hgoal : goal state
  · exact ⟨[], state, .nil state, hstate, hgoal⟩
  · obtain ⟨schedule, next, hruns, hnext, hlower⟩ := hprogress state hstate hgoal
    obtain ⟨rest, final, hrest, hfinal⟩ := exists_runs measure hprogress hnext
    exact ⟨schedule ++ rest, final, hruns.trans hrest, hfinal⟩
termination_by measure state

end Runs

section Recording

variable {History : Type w}

/-- The system with a history variable: what each step adds to it depends on the
step, and no step depends on it. -/
def recording (system : System State Action) (start : History)
    (record : State → Action → History → History) : System (State × History) Action where
  init := (system.init, start)
  step := fun recorded action =>
    (system.step recorded.1 action).map fun next => (next, record recorded.1 action recorded.2)

variable {start : History} {record : State → Action → History → History}

theorem recording_step_iff {recorded next : State × History} {action : Action} :
    (system.recording start record).step recorded action = some next ↔
      system.step recorded.1 action = some next.1 ∧
        next.2 = record recorded.1 action recorded.2 := by
  obtain ⟨state, history⟩ := next
  cases hnext : system.step recorded.1 action with
  | none => simp [recording, hnext]
  | some following => simp [recording, hnext, eq_comm]

/-- Without its history, a run is a run of the system. -/
theorem Reachable.forget {allowed : State × History → Action → Prop} {recorded : State × History}
    (hrecorded : Reachable (system.recording start record) allowed recorded) :
    Reachable system Unrestricted recorded.1 := by
  induction hrecorded with
  | init => exact .init
  | tail hstate hallowed hstep ih => exact .tail ih trivial (recording_step_iff.1 hstep).1

end Recording

section Replay

variable [∀ state action, Decidable (allowed state action)]

/-- Run a schedule from a state, as long as its steps are allowed and enabled. -/
def replay (system : System State Action) (allowed : State → Action → Prop)
    [∀ state action, Decidable (allowed state action)] : State → List Action → Option State
  | state, [] => some state
  | state, action :: schedule =>
      if allowed state action then
        (system.step state action).bind fun next => system.replay allowed next schedule
      else none

theorem reachable_of_replay {schedule : List Action} {state final : State}
    (hstate : Reachable system allowed state)
    (hreplay : system.replay allowed state schedule = some final) :
    Reachable system allowed final := by
  induction schedule generalizing state with
  | nil =>
      cases hreplay
      exact hstate
  | cons action schedule ih =>
      obtain ⟨hallowed, hnexts⟩ := Option.ite_none_right_eq_some.1 hreplay
      obtain ⟨next, hnext, hrest⟩ := Option.bind_eq_some_iff.1 hnexts
      exact ih (.tail hstate hallowed hnext) hrest

theorem runs_of_replay {schedule : List Action} {state final : State}
    (hreplay : system.replay allowed state schedule = some final) :
    Runs system allowed state schedule final := by
  induction schedule generalizing state with
  | nil =>
      cases hreplay
      exact .nil _
  | cons action schedule ih =>
      obtain ⟨hallowed, hnexts⟩ := Option.ite_none_right_eq_some.1 hreplay
      obtain ⟨next, hnext, hrest⟩ := Option.bind_eq_some_iff.1 hnexts
      exact .cons hallowed hnext (ih hrest)

/-- A schedule that runs to a state with a decidable property exhibits a
reachable state that has it. -/
theorem exists_reachable (schedule : List Action) {property : State → Prop}
    [DecidablePred property]
    (hreplay : ((system.replay allowed system.init schedule).any
      fun state => property state) = true) :
    ∃ state, Reachable system allowed state ∧ property state := by
  cases hfinal : system.replay allowed system.init schedule with
  | none => simp [hfinal] at hreplay
  | some final =>
      rw [hfinal] at hreplay
      exact ⟨final, reachable_of_replay .init hfinal, of_decide_eq_true hreplay⟩

end Replay

end System

end KernelSeal.Transition
