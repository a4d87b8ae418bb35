import TxnEvents.Effects.Interleaving

/-!
# Refining an abstract machine

A system of tasks refines an abstract machine when an abstraction maps each of
its permitted steps to one move of the machine or to none.  Then every run of
the system is a run of the machine, and what all moves keep holds of every
state that the system can reach.
-/

namespace Effects

/-- A state to start in, and what a move may do. -/
structure Machine (State Move : Type) where
  start : State
  step : State → Move → State → Prop

namespace Machine

variable {State Move : Type}

/-- The moves that lead from one state to another, the newest first. -/
inductive Steps (machine : Machine State Move) (before : State) :
    List Move → State → Prop
  | refl : Steps machine before [] before
  | step {moves : List Move} {middle after : State} {move : Move} :
      Steps machine before moves middle → machine.step middle move after →
        Steps machine before (move :: moves) after

variable {machine : Machine State Move} {before middle after : State}
  {early late : List Move}

theorem Steps.trans (first : machine.Steps before early middle)
    (second : machine.Steps middle late after) :
    machine.Steps before (late ++ early) after := by
  induction second with
  | refl => exact first
  | step _ taken inductionHypothesis => exact inductionHypothesis.step taken

/-- What every move keeps is kept by all of them. -/
theorem Steps.invariant {moves : List Move} {holds : State → Prop}
    (preserved : ∀ before move after, holds before →
      machine.step before move after → holds after)
    (steps : machine.Steps before moves after) (current : holds before) :
    holds after := by
  induction steps with
  | refl => exact current
  | step _ taken inductionHypothesis =>
      exact preserved _ _ _ inductionHypothesis taken

end Machine

variable {sig : Signature} {State Tid Choice Env Abstract Move : Type}
  [DecidableEq Tid]

/-- Every permitted step is one move of the machine, or none. -/
structure System.Refines (system : System sig State Tid Choice Env)
    (permit : Permit sig State Tid Choice Env)
    (start : Config sig State Tid) (machine : Machine Abstract Move)
    (abstraction : State → Abstract) : Prop where
  begins : abstraction start.shared = machine.start
  step : ∀ {before after : Config sig State Tid}
    {action : Action Tid Choice Env},
    system.Reachable permit start before → permit.Allows before action →
      system.step before action = some after →
        abstraction after.shared = abstraction before.shared ∨
          ∃ move, machine.step (abstraction before.shared) move
            (abstraction after.shared)

namespace System.Refines

variable {system : System sig State Tid Choice Env}
  {permit : Permit sig State Tid Choice Env} {start : Config sig State Tid}
  {machine : Machine Abstract Move} {abstraction : State → Abstract}

/-- A run from one reachable configuration to another is a run of the
machine. -/
theorem steps (refines : system.Refines permit start machine abstraction)
    {before after : Config sig State Tid}
    (reachable : system.Reachable permit start before)
    (continued : system.Reachable permit before after) :
    ∃ moves, machine.Steps (abstraction before.shared) moves
      (abstraction after.shared) := by
  induction continued with
  | start => exact ⟨[], Machine.Steps.refl⟩
  | step earlier allowed taken inductionHypothesis =>
      rcases inductionHypothesis with ⟨moves, reached⟩
      rcases refines.step (reachable.trans earlier) allowed taken with
        same | ⟨move, moved⟩
      · rw [same]
        exact ⟨moves, reached⟩
      · exact ⟨move :: moves, reached.step moved⟩

/-- Every run of the system is a run of the machine. -/
theorem runs (refines : system.Refines permit start machine abstraction)
    {config : Config sig State Tid}
    (reachable : system.Reachable permit start config) :
    ∃ moves, machine.Steps machine.start moves
      (abstraction config.shared) := by
  rw [← refines.begins]
  exact refines.steps System.Reachable.start reachable

/-- What holds at the start and is kept by every move of the machine holds of
the abstraction of every reachable configuration. -/
theorem invariant (refines : system.Refines permit start machine abstraction)
    {holds : Abstract → Prop} (initial : holds machine.start)
    (preserved : ∀ before move after, holds before →
      machine.step before move after → holds after)
    {config : Config sig State Tid}
    (reachable : system.Reachable permit start config) :
    holds (abstraction config.shared) := by
  rcases refines.runs reachable with ⟨moves, reached⟩
  exact reached.invariant preserved initial

end System.Refines

end Effects
