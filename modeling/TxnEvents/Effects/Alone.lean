import TxnEvents.Effects.Executions
import TxnEvents.Effects.RelyGuarantee

/-!
# Programs that run to their end alone

A program alone keeps every assertion that its own commands keep, comes to an
end when they can be performed, and ends as its weakest precondition says.
`Reachable.alone` makes it a run of the whole system in which the other tasks
wait, and `Reachable.descends` repeats such runs until a measure is used up.
-/

namespace Effects

section Progress

variable {sig : Signature} {State : Type} {α : Type}
  {performs wider : State → (command : sig.Command) →
    Except sig.Error (sig.Reply command) → State → Prop}
  {rely : State → State → Prop} {before after : State}

namespace Prog

/-- A program whose commands can be performed wherever an assertion holds, and
keep it, comes to an end. -/
theorem exists_runs_of {allowed : sig.Command → Prop} {holds : State → Prop}
    (refl : ∀ state, rely state state)
    (performable : ∀ state command, holds state → allowed command →
      ∃ reply left, performs state command reply left ∧ holds left)
    {body : Prog sig α} (uses : body.Uses allowed) (current : holds before) :
    ∃ outcome after, body.Runs performs rely before outcome after := by
  induction body generalizing before with
  | ret value =>
      exact ⟨.ok value, before, [], plays_ret_iff.mpr ⟨rfl, rfl⟩,
        Executes.rest (refl before)⟩
  | raise error =>
      exact ⟨.error error, before, [], plays_raise_iff.mpr ⟨rfl, rfl⟩,
        Executes.rest (refl before)⟩
  | call command resume inductionHypothesis =>
      rcases performable before command current uses.1 with
        ⟨reply, left, performed, kept⟩
      rcases inductionHypothesis reply (uses.2 reply) kept with
        ⟨outcome, after, trace, played, executes⟩
      exact ⟨outcome, after, ⟨command, reply⟩ :: trace, Leads.call played,
        Executes.step (refl before) performed executes⟩

/-- A program of a task that may issue every command. -/
theorem uses_of_all {allowed : sig.Command → Prop}
    (all : ∀ command, allowed command) (body : Prog sig α) :
    body.Uses allowed := by
  induction body with
  | ret value => exact trivial
  | raise error => exact trivial
  | call command resume inductionHypothesis =>
      exact ⟨all command, inductionHypothesis⟩

/-- The same run where more is allowed. -/
theorem Runs.mono {body : Prog sig α} {outcome : Except sig.Error α}
    (weaken : ∀ met command reply left,
      performs met command reply left → wider met command reply left)
    (runs : body.Runs performs rely before outcome after) :
    body.Runs wider rely before outcome after := by
  rcases runs with ⟨trace, played, executes⟩
  refine ⟨trace, played, ?_⟩
  clear played
  induction executes with
  | rest others => exact Executes.rest others
  | step others performed _ inductionHypothesis =>
      exact Executes.step others (weaken _ _ _ _ performed) inductionHypothesis

theorem Runs.attempt {body : Prog sig α}
    {outcome : Except sig.Error (Except sig.Error α)}
    (runs : body.attempt.Runs performs rely before outcome after) :
    ∃ ended, outcome = .ok ended ∧
      body.Runs performs rely before ended after := by
  rcases runs with ⟨trace, played, executes⟩
  rcases plays_attempt_iff.mp played with ⟨ended, same, inside⟩
  exact ⟨ended, same, trace, inside, executes⟩

theorem Runs.tryExcept {body : Prog sig α} {handler : sig.Error → Prog sig α}
    {outcome : Except sig.Error α} (refl : ∀ state, rely state state)
    (runs : (body.tryExcept handler).Runs performs rely before outcome after) :
    (∃ value, outcome = .ok value ∧
      body.Runs performs rely before (.ok value) after) ∨
    ∃ error middle, body.Runs performs rely before (.error error) middle ∧
      (handler error).Runs performs rely middle outcome after := by
  rcases runs with ⟨trace, played, executes⟩
  rcases plays_tryExcept_iff.mp played with
    ⟨value, same, inside⟩ | ⟨error, early, late, same, inside, handled⟩
  · exact Or.inl ⟨value, same, trace, inside, executes⟩
  · rw [same] at executes
    rcases executes.of_append refl with ⟨middle, earlier, later⟩
    exact Or.inr ⟨error, middle, ⟨early, inside, earlier⟩,
      ⟨late, handled, later⟩⟩

theorem Runs.raise {error : sig.Error} {outcome : Except sig.Error α}
    (runs : (Prog.raise error : Prog sig α).Runs performs rely before outcome
      after) : outcome = .error error ∧ rely before after := by
  rcases runs with ⟨trace, played, executes⟩
  rcases plays_raise_iff.mp played with ⟨empty, ended⟩
  rw [empty] at executes
  exact ⟨ended, executes.after_nil⟩

/-- The first command of a program that runs alone, and the rest of it. -/
theorem Runs.call {command : sig.Command}
    {resume : Except sig.Error (sig.Reply command) → Prog sig α}
    {outcome : Except sig.Error α}
    (runs : (Prog.call command resume).Runs performs Eq before outcome after) :
    ∃ reply left, performs before command reply left ∧
      (resume reply).Runs performs Eq left outcome after := by
  rcases runs with ⟨trace, played, executes⟩
  rcases plays_call_iff.mp played with ⟨reply, rest, same, continues⟩
  rw [same] at executes
  rcases executes.after_cons with ⟨met, left, reached, performed, later⟩
  rw [← reached] at performed
  exact ⟨reply, left, performed, rest, continues, later⟩

end Prog

end Progress

section Systems

variable {sig : Signature} {State Tid Choice Env : Type}
  {system : System sig State Tid Choice Env} {task : Tid}

/-- A program alone ends as its weakest precondition says. -/
theorem Discipline.runs_of_wp {discipline : Discipline system} {α : Type}
    {body : Prog sig α} {post : Except sig.Error α → State → Prop}
    {before after : State} {outcome : Except sig.Error α}
    (invariant : discipline.inv before)
    (right : discipline.wp task body post before)
    (runs : body.Runs (system.performs discipline.permit task) Eq before
      outcome after) :
    post outcome after ∧ discipline.inv after := by
  induction body generalizing before with
  | ret value =>
      rcases runs.ret with ⟨ended, same⟩
      rw [ended, ← same]
      exact ⟨right, invariant⟩
  | raise error =>
      rcases runs.raise with ⟨ended, same⟩
      rw [ended, ← same]
      exact ⟨right, invariant⟩
  | call command resume inductionHypothesis =>
      rcases runs.call with ⟨reply, left, ⟨choice, permitted, taken⟩, later⟩
      rcases right before (discipline.rely_refl task before) invariant choice
        reply left permitted taken with ⟨guarantee, rest⟩
      exact inductionHypothesis reply guarantee.inv rest later

variable [DecidableEq Tid] {permit : Permit sig State Tid Choice Env}
  {start config : Config sig State Tid}

/-- A task that runs its program to the end while the others wait. -/
theorem System.Reachable.alone {body : Prog sig Unit}
    {outcome : Except sig.Error Unit} {after : State}
    (reachable : system.Reachable permit start config)
    (running : config.tasks task = some body)
    (runs : body.Runs (system.performs permit task) Eq config.shared outcome
      after) :
    system.Reachable permit start
      ⟨after, Function.update config.tasks task
        (some (Prog.ofExcept outcome))⟩ := by
  induction body generalizing config with
  | ret value =>
      rcases runs.ret with ⟨ended, same⟩
      rw [ended, ← same, Prog.ofExcept, ← running, Function.update_eq_self]
      exact reachable
  | raise error =>
      rcases runs.raise with ⟨ended, same⟩
      rw [ended, ← same, Prog.ofExcept, ← running, Function.update_eq_self]
      exact reachable
  | call command resume inductionHypothesis =>
      rcases runs.call with ⟨reply, left, ⟨choice, permitted, taken⟩, later⟩
      have allowed : permit.Allows config (.run task choice) := by
        intro issued next current
        rw [running] at current
        cases current
        exact permitted
      have stepped : system.step config (.run task choice) =
          some ⟨left, Function.update config.tasks task
            (some (resume reply))⟩ := by
        simp only [System.step, running]
        rw [taken]
        rfl
      have reached := inductionHypothesis reply
        (reachable.step allowed stepped) (Function.update_self ..) later
      rwa [Function.update_idem] at reached

/-- The task whose program has returned goes on. -/
theorem System.Reachable.finish
    (reachable : system.Reachable permit start config)
    (returned : config.tasks task = some (.ret ())) :
    system.Reachable permit start
      ⟨config.shared, system.next task config.tasks⟩ := by
  have allowed : permit.Allows config (.finish task) := trivial
  apply reachable.step allowed
  simp only [System.step, returned]

/-- Runs that each make a measure smaller, one after the other until it is
zero. -/
theorem System.Reachable.descends
    {good : Config sig State Tid → Prop}
    (measure : Config sig State Tid → Nat)
    (progress : ∀ before, good before → 0 < measure before →
      ∃ after, system.Reachable permit before after ∧ good after ∧
        measure after < measure before)
    (current : good config) :
    ∃ last, system.Reachable permit config last ∧ good last ∧
      measure last = 0 := by
  induction size : measure config using Nat.strongRecOn generalizing config with
  | ind bound inductionHypothesis =>
      by_cases done : measure config = 0
      · exact ⟨config, Reachable.start, current, done⟩
      · rcases progress config current (Nat.pos_of_ne_zero done) with
          ⟨after, reached, still, smaller⟩
        rw [size] at smaller
        rcases inductionHypothesis _ smaller still rfl with
          ⟨last, later, ended⟩
        exact ⟨last, reached.trans later, ended⟩

/-! ### The programs of a task -/

/-- What holds of the programs that a task is given, and still holds after each
answer, holds of what it has left to run. -/
theorem System.Reachable.programs {good : Tid → Prog sig Unit → Prop}
    (resumed : ∀ config task command resume choice reply after,
      system.Reachable permit start config →
        config.tasks task = some (.call command resume) →
          permit.command config.shared task command choice →
            system.exec config.shared task command choice =
                some (reply, after) →
              good task (.call command resume) → good task (resume reply))
    (begun : ∀ task program, start.tasks task = some program →
      good task program)
    (followed : ∀ finished tasks task program,
      system.next finished tasks task = some program →
        tasks task = some program ∨ good task program)
    (happened : ∀ event state tasks after tasksAfter task program,
      system.env event state tasks = some (after, tasksAfter) →
        tasksAfter task = some program →
          tasks task = some program ∨ good task program)
    (reachable : system.Reachable permit start config) :
    ∀ task program, config.tasks task = some program →
      good task program := by
  induction reachable with
  | start => exact begun
  | @step before after action earlier allowed taken held =>
      intro other left current
      cases step_cases taken with
      | @ran actor choice command resume reply reached mine executed same =>
          rw [same] at current
          change Function.update before.tasks actor (some (resume reply))
            other = some left at current
          by_cases own : other = actor
          · rw [own, Function.update_self] at current
            cases current
            rw [own]
            exact resumed before actor command resume choice reply reached
              earlier mine (allowed command resume mine) executed
              (held actor _ mine)
          · rw [Function.update_of_ne own] at current
            exact held other left current
      | finished returned same =>
          rw [same] at current
          exact (followed _ _ _ _ current).elim (held other left) id
      | happened occurred =>
          exact (happened _ _ _ _ _ _ _ occurred current).elim
            (held other left) id

/-- A task uses no other commands than the programs that it is given. -/
theorem System.Reachable.uses {allowed : Tid → sig.Command → Prop}
    (begun : ∀ task program, start.tasks task = some program →
      program.Uses (allowed task))
    (followed : ∀ finished tasks task program,
      system.next finished tasks task = some program →
        tasks task = some program ∨ program.Uses (allowed task))
    (happened : ∀ event state tasks after tasksAfter task program,
      system.env event state tasks = some (after, tasksAfter) →
        tasksAfter task = some program →
          tasks task = some program ∨ program.Uses (allowed task))
    (reachable : system.Reachable permit start config) :
    ∀ task program, config.tasks task = some program →
      program.Uses (allowed task) :=
  reachable.programs (fun _ _ _ _ _ reply _ _ _ _ _ uses => uses.2 reply)
    begun followed happened

/-- Induction over runs in which every task keeps to its commands. -/
theorem System.Reachable.invariant_uses {allowed : Tid → sig.Command → Prop}
    (uses : ∀ config, system.Reachable permit start config →
      ∀ task program, config.tasks task = some program →
        program.Uses (allowed task))
    {holds : State → Prop} (initial : holds start.shared)
    (command : ∀ state task command choice reply after, holds state →
      allowed task command → permit.command state task command choice →
        system.exec state task command choice = some (reply, after) →
          holds after)
    (event : ∀ state event tasks after tasksAfter, holds state →
      permit.env state event →
        system.env event state tasks = some (after, tasksAfter) → holds after)
    (reachable : system.Reachable permit start config) :
    holds config.shared := by
  induction reachable with
  | start => exact initial
  | @step before last action earlier allows taken inductionHypothesis =>
      cases step_cases taken with
      | @ran actor choice issued resume reply reached mine executed same =>
          rw [same]
          exact command _ _ _ _ _ _ inductionHypothesis
            (uses before earlier actor _ mine).1 (allows _ _ mine) executed
      | finished _ same =>
          rw [same]
          exact inductionHypothesis
      | happened occurred =>
          exact event _ _ _ _ _ inductionHypothesis allows occurred

end Systems

end Effects
