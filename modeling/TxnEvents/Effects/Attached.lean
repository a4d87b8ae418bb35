import TxnEvents.Effects.Interleaving

/-!
# A system beside another component

The tasks of a system run beside a component that they cannot write to, and
that changes by signals of its own.  A run of the two projects to a run of the
system, and a run of the system lifts to one of the two in which the component
stays as it is.
-/

namespace Effects

variable {sig : Signature} {State Tid Choice Env Component Signal : Type}

/-- The system beside a component. -/
def System.attach (system : System sig State Tid Choice Env)
    (react : Component → Signal → Component) :
    System sig (State × Component) Tid Choice (Env ⊕ Signal) where
  exec both task command choice :=
    (system.exec both.1 task command choice).map fun outcome =>
      (outcome.1, (outcome.2, both.2))
  next := system.next
  env event both tasks :=
    match event with
    | .inl event =>
        (system.env event both.1 tasks).map fun outcome =>
          ((outcome.1, both.2), outcome.2)
    | .inr signal => some ((both.1, react both.2 signal), tasks)

/-- A configuration of the system beside the component. -/
def Config.beside (config : Config sig State Tid) (component : Component) :
    Config sig (State × Component) Tid :=
  ⟨(config.shared, component), config.tasks⟩

/-- The system's part of a configuration. -/
def Config.own (config : Config sig (State × Component) Tid) :
    Config sig State Tid :=
  ⟨config.shared.1, config.tasks⟩

/-- An action of the system, beside the component. -/
def Action.beside : Action Tid Choice Env → Action Tid Choice (Env ⊕ Signal)
  | .run task choice => .run task choice
  | .finish task => .finish task
  | .env event => .env (.inl event)

theorem Config.own_beside (config : Config sig (State × Component) Tid) :
    config.own.beside config.shared.2 = config := rfl

namespace System

variable [DecidableEq Tid] {system : System sig State Tid Choice Env}
  {react : Component → Signal → Component}

/-- An action of the system does what it does alone. -/
theorem step_beside (config : Config sig State Tid) (component : Component)
    (action : Action Tid Choice Env) :
    (system.attach react).step (config.beside component) action.beside =
      (system.step config action).map fun after => after.beside component := by
  cases action with
  | run task choice =>
      simp only [Action.beside, System.step, Config.beside]
      cases current : config.tasks task with
      | none => rfl
      | some program =>
          cases program with
          | ret value => rfl
          | raise error => rfl
          | call command resume =>
              simp only [attach, Option.map_map]
              rfl
  | finish task =>
      simp only [Action.beside, System.step, Config.beside]
      cases current : config.tasks task with
      | none => rfl
      | some program =>
          cases program with
          | ret value => rfl
          | raise error => rfl
          | call command resume => rfl
  | env event =>
      simp only [Action.beside, System.step, Config.beside, attach,
        Option.map_map]
      rfl

/-- Every action is one of the system or a signal. -/
theorem step_attach_cases
    {before after : Config sig (State × Component) Tid}
    {action : Action Tid Choice (Env ⊕ Signal)}
    (taken : (system.attach react).step before action = some after) :
    (∃ alone : Action Tid Choice Env, action = alone.beside ∧
        system.step before.own alone = some after.own ∧
          after.shared.2 = before.shared.2) ∨
      ∃ signal, action = .env (.inr signal) ∧ after.own = before.own ∧
        after.shared.2 = react before.shared.2 signal := by
  have matched : ∀ alone : Action Tid Choice Env,
      (system.attach react).step before alone.beside = some after →
        system.step before.own alone = some after.own ∧
          after.shared.2 = before.shared.2 := by
    intro alone stepped
    rw [← before.own_beside, step_beside] at stepped
    rcases Option.map_eq_some_iff.mp stepped with ⟨reached, found, same⟩
    rw [← same]
    exact ⟨found, rfl⟩
  cases action with
  | run task choice => exact Or.inl ⟨.run task choice, rfl, matched _ taken⟩
  | finish task => exact Or.inl ⟨.finish task, rfl, matched _ taken⟩
  | env event =>
      cases event with
      | inl event => exact Or.inl ⟨.env event, rfl, matched _ taken⟩
      | inr signal =>
          have reached : some (before.own.beside
              (react before.shared.2 signal)) = some after := taken
          cases reached
          exact Or.inr ⟨signal, rfl, rfl, rfl⟩

namespace Reachable

variable {both : Permit sig (State × Component) Tid Choice (Env ⊕ Signal)}
  {alone : Permit sig State Tid Choice Env}

/-- A run of the two is a run of the system, under every permit that allows
what the system did. -/
theorem own {start config : Config sig (State × Component) Tid}
    (commands : ∀ both_ task command choice,
      both.command both_ task command choice →
        alone.command both_.1 task command choice)
    (events : ∀ both_ event,
      both.env both_ (.inl event) → alone.env both_.1 event)
    (reachable : (system.attach react).Reachable both start config) :
    system.Reachable alone start.own config.own := by
  induction reachable with
  | start => exact System.Reachable.start
  | step _ allowed taken inductionHypothesis =>
      rcases step_attach_cases taken with
        ⟨action, rfl, stepped, _⟩ | ⟨signal, _, same, _⟩
      · refine inductionHypothesis.step ?_ stepped
        cases action with
        | run task choice =>
            intro command resume current
            exact commands _ _ _ _ (allowed command resume current)
        | finish task => exact trivial
        | env event => exact events _ _ allowed
      · rw [same]
        exact inductionHypothesis

/-- A run of the system is one of the two in which the component rests. -/
theorem beside {start config : Config sig State Tid} (component : Component)
    (commands : ∀ state task command choice,
      alone.command state task command choice →
        both.command (state, component) task command choice)
    (events : ∀ state event, alone.env state event →
      both.env (state, component) (.inl event))
    (reachable : system.Reachable alone start config) :
    (system.attach react).Reachable both (start.beside component)
      (config.beside component) := by
  induction reachable with
  | start => exact System.Reachable.start
  | step earlier allowed taken inductionHypothesis =>
      rename_i before after action
      have permitted :
          both.Allows (before.beside component) action.beside := by
        cases action with
        | run task choice =>
            intro command resume current
            exact commands _ _ _ _ (allowed command resume current)
        | finish task => exact trivial
        | env event => exact events _ _ allowed
      refine inductionHypothesis.step permitted ?_
      rw [step_beside, taken, Option.map_some]

end Reachable

end System

end Effects
