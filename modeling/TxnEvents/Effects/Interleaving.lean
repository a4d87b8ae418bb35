import Mathlib.Logic.Function.Basic
import TxnEvents.Effects.Program

/-!
# Interleaved runs

Several tasks run over one shared state.  A step executes the next command of
one task, starts the next round of a task whose program has returned, or lets
the environment act.  Whatever the outside world decides (whether a command
fails, what a service answers, which of several legal effects it has) comes in
as an explicit choice, so that a step is a computable partial function and a
run is a list of actions.

A `Permit` restricts the runs under study: it says which commands may meet
which choices, and when the environment may act, judged on the state before
the step.
-/

namespace Effects

/-- The programs the tasks still have to run. -/
abbrev Tasks (sig : Signature) (Tid : Type) : Type :=
  Tid → Option (Prog sig Unit)

/-- A shared-state system of interleaved tasks. -/
structure System (sig : Signature) (State Tid Choice Env : Type) where
  /-- One command of one task; `none` when it cannot happen with that
  choice in that state. -/
  exec : State → Tid → (command : sig.Command) → Choice →
    Option (Except sig.Error (sig.Reply command) × State)
  /-- What runs after the program of a task has returned. -/
  next : Tid → Tasks sig Tid → Tasks sig Tid
  /-- A step that is no task's own. -/
  env : Env → State → Tasks sig Tid → Option (State × Tasks sig Tid)

/-- The shared state together with the running tasks. -/
structure Config (sig : Signature) (State Tid : Type) where
  shared : State
  tasks : Tasks sig Tid

/-- One scheduling decision. -/
inductive Action (Tid Choice Env : Type)
  | run (task : Tid) (choice : Choice)
  | finish (task : Tid)
  | env (event : Env)

/-- Which steps the runs under study may take, judged before the step. -/
structure Permit (sig : Signature) (State Tid Choice Env : Type) where
  command : State → Tid → sig.Command → Choice → Prop
  env : State → Env → Prop

namespace Permit

variable {sig : Signature} {State Tid Choice Env : Type}

/-- No restriction. -/
def any : Permit sig State Tid Choice Env :=
  ⟨fun _ _ _ _ => True, fun _ _ => True⟩

/-- Whether a permit lets an action happen in a configuration. -/
def Allows (permit : Permit sig State Tid Choice Env)
    (config : Config sig State Tid) : Action Tid Choice Env → Prop
  | .run task choice =>
      ∀ command resume,
        config.tasks task = some (.call command resume) →
          permit.command config.shared task command choice
  | .finish _ => True
  | .env event => permit.env config.shared event

end Permit

/-- A permit that can be computed. -/
structure Guard (sig : Signature) (State Tid Choice Env : Type) where
  command : State → Tid → sig.Command → Choice → Bool
  env : State → Env → Bool

namespace Guard

variable {sig : Signature} {State Tid Choice Env : Type}

/-- No restriction. -/
def any : Guard sig State Tid Choice Env :=
  ⟨fun _ _ _ _ => true, fun _ _ => true⟩

def allows (guard : Guard sig State Tid Choice Env)
    (config : Config sig State Tid) : Action Tid Choice Env → Bool
  | .run task choice =>
      match config.tasks task with
      | some (.call command _) =>
          guard.command config.shared task command choice
      | _ => true
  | .finish _ => true
  | .env event => guard.env config.shared event

/-- What passes the guard is permitted. -/
structure Respects (guard : Guard sig State Tid Choice Env)
    (permit : Permit sig State Tid Choice Env) : Prop where
  command : ∀ state task command choice,
    guard.command state task command choice = true →
      permit.command state task command choice
  env : ∀ state event, guard.env state event = true → permit.env state event

theorem Respects.allows {guard : Guard sig State Tid Choice Env}
    {permit : Permit sig State Tid Choice Env}
    (respects : guard.Respects permit) {config : Config sig State Tid}
    {action : Action Tid Choice Env}
    (passed : guard.allows config action = true) :
    permit.Allows config action := by
  cases action with
  | run task choice =>
      intro command resume current
      simp only [Guard.allows, current] at passed
      exact respects.command _ _ _ _ passed
  | finish task => exact trivial
  | env event => exact respects.env _ _ passed

end Guard

namespace System

variable {sig : Signature} {State Tid Choice Env : Type} [DecidableEq Tid]

/-- One step of the system. -/
def step (system : System sig State Tid Choice Env)
    (config : Config sig State Tid) :
    Action Tid Choice Env → Option (Config sig State Tid)
  | .run task choice =>
      match config.tasks task with
      | some (.call command resume) =>
          (system.exec config.shared task command choice).map
            fun outcome =>
              ⟨outcome.2,
                Function.update config.tasks task
                  (some (resume outcome.1))⟩
      | _ => none
  | .finish task =>
      match config.tasks task with
      | some (.ret ()) => some ⟨config.shared, system.next task config.tasks⟩
      | _ => none
  | .env event =>
      (system.env event config.shared config.tasks).map
        fun outcome => ⟨outcome.1, outcome.2⟩

/-- Take the listed steps one after the other, as long as they pass the
guard. -/
def run (system : System sig State Tid Choice Env)
    (guard : Guard sig State Tid Choice Env)
    (config : Config sig State Tid) :
    List (Action Tid Choice Env) → Option (Config sig State Tid)
  | [] => some config
  | action :: rest =>
      if guard.allows config action = true then
        (system.step config action).bind fun after =>
          system.run guard after rest
      else none

/-- The configurations of the permitted runs from `start`. -/
inductive Reachable (system : System sig State Tid Choice Env)
    (permit : Permit sig State Tid Choice Env)
    (start : Config sig State Tid) : Config sig State Tid → Prop
  | start : Reachable system permit start start
  | step {before after : Config sig State Tid}
      {action : Action Tid Choice Env} :
      Reachable system permit start before →
      permit.Allows before action →
      system.step before action = some after →
      Reachable system permit start after

variable {system : System sig State Tid Choice Env}
  {permit wider : Permit sig State Tid Choice Env}
  {start : Config sig State Tid}

/-- What a step has done. -/
inductive Stepped (system : System sig State Tid Choice Env)
    (before after : Config sig State Tid) : Action Tid Choice Env → Prop
  | ran {task : Tid} {choice : Choice} {command : sig.Command}
      {resume : Except sig.Error (sig.Reply command) → Prog sig Unit}
      {reply : Except sig.Error (sig.Reply command)} {left : State} :
      before.tasks task = some (.call command resume) →
      system.exec before.shared task command choice = some (reply, left) →
      after =
        ⟨left, Function.update before.tasks task (some (resume reply))⟩ →
      Stepped system before after (.run task choice)
  | finished {task : Tid} :
      before.tasks task = some (.ret ()) →
      after = ⟨before.shared, system.next task before.tasks⟩ →
      Stepped system before after (.finish task)
  | happened {event : Env} :
      system.env event before.shared before.tasks =
        some (after.shared, after.tasks) →
      Stepped system before after (.env event)

theorem step_cases {before after : Config sig State Tid}
    {action : Action Tid Choice Env}
    (taken : system.step before action = some after) :
    system.Stepped before after action := by
  cases action with
  | run task choice =>
      simp only [System.step] at taken
      split at taken
      case h_2 => cases taken
      case h_1 command resume running =>
        obtain ⟨⟨reply, left⟩, executed, same⟩ :=
          Option.map_eq_some_iff.mp taken
        exact Stepped.ran running executed same.symm
  | finish task =>
      simp only [System.step] at taken
      split at taken
      case h_2 => cases taken
      case h_1 running =>
        exact Stepped.finished running (Option.some.inj taken).symm
  | env event =>
      obtain ⟨⟨left, tasks⟩, happened, same⟩ :=
        Option.map_eq_some_iff.mp taken
      cases same
      exact Stepped.happened happened

/-- Induction over runs: what holds at the start and survives every
permitted step holds in every reachable configuration. -/
theorem Reachable.invariant {holds : Config sig State Tid → Prop}
    (initial : holds start)
    (preserved : ∀ before action after, holds before →
      permit.Allows before action →
      system.step before action = some after → holds after)
    {config : Config sig State Tid}
    (reachable : system.Reachable permit start config) :
    holds config := by
  induction reachable with
  | start => exact initial
  | step _ allowed taken inductionHypothesis =>
      exact preserved _ _ _ inductionHypothesis allowed taken

/-- Induction over runs for a property of the shared state: what every
permitted command and every permitted event keeps. -/
theorem Reachable.invariant_shared {holds : State → Prop}
    (initial : holds start.shared)
    (command : ∀ state task command choice reply after, holds state →
      permit.command state task command choice →
        system.exec state task command choice = some (reply, after) →
          holds after)
    (event : ∀ state event tasks after tasksAfter, holds state →
      permit.env state event →
        system.env event state tasks = some (after, tasksAfter) → holds after)
    {config : Config sig State Tid}
    (reachable : system.Reachable permit start config) :
    holds config.shared := by
  let preserved (config : Config sig State Tid) : Prop := holds config.shared
  change preserved config
  refine Reachable.invariant initial ?_ reachable
  intro before action after current allowed taken
  change holds before.shared at current
  change holds after.shared
  cases step_cases taken with
  | ran running executed same =>
      rw [same]
      exact command _ _ _ _ _ _ current (allowed _ _ running) executed
  | finished _ same =>
      rw [same]
      exact current
  | happened occurred => exact event _ _ _ _ _ current allowed occurred

theorem Reachable.trans {middle last : Config sig State Tid}
    (early : system.Reachable permit start middle)
    (late : system.Reachable permit middle last) :
    system.Reachable permit start last :=
  late.invariant early fun _ _ _ reached allowed taken =>
    reached.step allowed taken

/-- A run under a permit is a run under every weaker permit. -/
theorem Reachable.mono
    (commands : ∀ state task command choice,
      permit.command state task command choice →
        wider.command state task command choice)
    (events : ∀ state event, permit.env state event → wider.env state event)
    {config : Config sig State Tid}
    (reachable : system.Reachable permit start config) :
    system.Reachable wider start config := by
  refine Reachable.invariant Reachable.start ?_ reachable
  intro before action after earlier allowed taken
  refine Reachable.step earlier ?_ taken
  cases action with
  | run task choice =>
      intro command resume current
      exact commands _ _ _ _ (allowed command resume current)
  | finish task => exact trivial
  | env event => exact events _ _ allowed

/-- A guarded run leads to a reachable configuration. -/
theorem Reachable.of_run {guard : Guard sig State Tid Choice Env}
    (respects : guard.Respects permit) {actions : List (Action Tid Choice Env)}
    {config : Config sig State Tid}
    (taken : system.run guard start actions = some config) :
    system.Reachable permit start config := by
  suffices extend : ∀ (actions : List (Action Tid Choice Env))
      (before : Config sig State Tid),
      system.Reachable permit start before →
      system.run guard before actions = some config →
      system.Reachable permit start config from
    extend actions start Reachable.start taken
  intro actions
  induction actions with
  | nil =>
      intro before earlier done
      cases done
      exact earlier
  | cons action rest inductionHypothesis =>
      intro before earlier done
      simp only [System.run] at done
      split at done
      case isTrue passed =>
        obtain ⟨after, first, later⟩ := Option.bind_eq_some_iff.mp done
        exact inductionHypothesis after
          (earlier.step (respects.allows passed) first) later
      case isFalse => cases done

end System

end Effects
