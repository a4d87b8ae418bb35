import TxnEvents.Effects.Interleaving

/-!
# Systems that agree

Two systems that differ only in commands which no task ever issues take the
same steps, and so have the same runs.
-/

namespace Effects

section Agreement

variable {sig : Signature} {State Tid Choice Env : Type}
  {allowed : sig.Command → Prop}

/-- The tasks have left only programs that use allowed commands. -/
def TasksUse (allowed : sig.Command → Prop) (tasks : Tasks sig Tid) : Prop :=
  ∀ task program, tasks task = some program → program.Uses allowed

variable [DecidableEq Tid]

theorem TasksUse.update
    {tasks : Tasks sig Tid}
    {program : Prog sig Unit}
    (uses : TasksUse allowed tasks)
    (task : Tid)
    (added : program.Uses allowed) :
    TasksUse allowed (Function.update tasks task (some program)) := by
  intro other found running
  by_cases same : other = task
  · rw [same, Function.update_self, Option.some_inj] at running
    rw [← running]
    exact added
  · rw [Function.update_of_ne same] at running
    exact uses other found running

namespace System

/-- The programs that the system starts use allowed commands. -/
structure Confined
    (system : System sig State Tid Choice Env)
    (allowed : sig.Command → Prop) : Prop where
  next : ∀ task tasks, TasksUse allowed tasks →
    TasksUse allowed (system.next task tasks)
  env : ∀ event state tasks after tasksAfter, TasksUse allowed tasks →
    system.env event state tasks = some (after, tasksAfter) →
      TasksUse allowed tasksAfter

/-- The systems differ at most in commands that are not allowed. -/
structure Agrees
    (left right : System sig State Tid Choice Env)
    (allowed : sig.Command → Prop) : Prop where
  exec : ∀ state task command choice, allowed command →
    left.exec state task command choice = right.exec state task command choice
  next : left.next = right.next
  env : left.env = right.env

variable {system left right : System sig State Tid Choice Env}
  {config after : Config sig State Tid} {action : Action Tid Choice Env}

theorem Confined.step
    (confined : system.Confined allowed)
    (uses : TasksUse allowed config.tasks)
    (taken : system.step config action = some after) :
    TasksUse allowed after.tasks := by
  cases step_cases taken with
  | ran running _ same =>
      rw [same]
      exact uses.update _ ((uses _ _ running).2 _)
  | finished _ same =>
      rw [same]
      exact confined.next _ _ uses
  | happened occurred => exact confined.env _ _ _ _ _ uses occurred

theorem Agrees.step_eq
    (agrees : left.Agrees right allowed)
    (uses : TasksUse allowed config.tasks)
    (action : Action Tid Choice Env) :
    left.step config action = right.step config action := by
  cases action with
  | run task choice =>
      rw [System.step, System.step]
      split
      case h_1 command resume running =>
        rw [agrees.exec _ _ _ _ (uses task _ running).1]
      case h_2 => rfl
  | finish task => rw [System.step, System.step, agrees.next]
  | env event => rw [System.step, System.step, agrees.env]

/-- Where the systems agree, every list of actions leads to the same
configuration, or is no run of either. -/
theorem Agrees.run_eq
    (agrees : left.Agrees right allowed)
    (confined : left.Confined allowed)
    (uses : TasksUse allowed config.tasks)
    (guard : Guard sig State Tid Choice Env)
    (actions : List (Action Tid Choice Env)) :
    left.run guard config actions = right.run guard config actions := by
  induction actions generalizing config with
  | nil => rfl
  | cons action rest inductionHypothesis =>
      rw [System.run, System.run, agrees.step_eq uses action]
      split
      case isTrue =>
        apply Option.bind_congr
        intro after taken
        rw [← agrees.step_eq uses action] at taken
        exact inductionHypothesis (confined.step uses taken)
      case isFalse => rfl

end System

end Agreement

end Effects
