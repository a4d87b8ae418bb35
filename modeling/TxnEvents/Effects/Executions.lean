import TxnEvents.Effects.Interleaving
import TxnEvents.Effects.Traces

/-!
# Executions of one program among others

`Executes` runs a trace through states: the others act, a command is
performed in the state they left, and so on.  `Continues` are the runs of a
system in which one task keeps its program, and `Continues.executes` says that
such a task executes a trace of its program, whatever the others do.
-/

namespace Effects

section Executes

variable {sig : Signature} {State : Type}

/-- The trace takes the first state to the last one. -/
inductive Executes
    (performs : State → (command : sig.Command) →
      Except sig.Error (sig.Reply command) → State → Prop)
    (rely : State → State → Prop) : State → Trace sig → State → Prop
  | rest {before after : State} :
      rely before after → Executes performs rely before [] after
  | step {before met left after : State} {command : sig.Command}
      {reply : Except sig.Error (sig.Reply command)} {trace : Trace sig} :
      rely before met → performs met command reply left →
        Executes performs rely left trace after →
          Executes performs rely before (⟨command, reply⟩ :: trace) after

variable {performs : State → (command : sig.Command) →
    Except sig.Error (sig.Reply command) → State → Prop}
  {rely : State → State → Prop} {before after : State}

theorem Executes.after_nil (executes : Executes performs rely before [] after) :
    rely before after := by
  cases executes with
  | rest others => exact others

theorem Executes.after_cons {answer : Answer sig} {trace : Trace sig}
    (executes : Executes performs rely before (answer :: trace) after) :
    ∃ met left, rely before met ∧
      performs met answer.command answer.reply left ∧
        Executes performs rely left trace after := by
  cases executes with
  | step others performed later => exact ⟨_, _, others, performed, later⟩

theorem Executes.of_append (refl : ∀ state, rely state state)
    {early late : Trace sig}
    (executes : Executes performs rely before (early ++ late) after) :
    ∃ middle, Executes performs rely before early middle ∧
      Executes performs rely middle late after := by
  induction early generalizing before with
  | nil => exact ⟨before, Executes.rest (refl before), executes⟩
  | cons answer rest inductionHypothesis =>
      obtain ⟨met, left, others, performed, later⟩ := executes.after_cons
      obtain ⟨middle, first, second⟩ := inductionHypothesis later
      exact ⟨middle, Executes.step others performed first, second⟩

/-- The others may act once more. -/
theorem Executes.others
    (trans : ∀ first second third,
      rely first second → rely second third → rely first third)
    {trace : Trace sig} {final : State}
    (executes : Executes performs rely before trace after)
    (rested : rely after final) :
    Executes performs rely before trace final := by
  induction executes with
  | rest others => exact Executes.rest (trans _ _ _ others rested)
  | step others performed _ inductionHypothesis =>
      exact Executes.step others performed (inductionHypothesis rested)

/-- One command more. -/
theorem Executes.snoc (refl : ∀ state, rely state state)
    {trace : Trace sig} {command : sig.Command}
    {reply : Except sig.Error (sig.Reply command)} {left : State}
    (executes : Executes performs rely before trace after)
    (performed : performs after command reply left) :
    Executes performs rely before (trace ++ [⟨command, reply⟩]) left := by
  induction executes with
  | rest others =>
      exact Executes.step others performed (Executes.rest (refl left))
  | step others earlier _ inductionHypothesis =>
      exact Executes.step others earlier (inductionHypothesis performed)

/-- What the others and every command of the trace preserve lasts to the
end. -/
theorem Executes.preserves (holds : State → Prop) {trace : Trace sig}
    (executes : Executes performs rely before trace after)
    (others : ∀ first second, rely first second → holds first → holds second)
    (own : ∀ met command reply left, performs met command reply left →
      (⟨command, reply⟩ : Answer sig) ∈ trace → holds met → holds left)
    (current : holds before) : holds after := by
  induction executes with
  | rest moved => exact others _ _ moved current
  | step moved performed _ inductionHypothesis =>
      apply inductionHypothesis
      · intro met command reply left performed member
        exact own met command reply left performed
          (List.mem_cons_of_mem _ member)
      · apply own _ _ _ _ performed List.mem_cons_self
        exact others _ _ moved current

/-! ## Whole programs -/

/-- The program takes the first state to the last one among others, with this
outcome. -/
def Prog.Runs {α : Type}
    (performs : State → (command : sig.Command) →
      Except sig.Error (sig.Reply command) → State → Prop)
    (rely : State → State → Prop) (body : Prog sig α) (before : State)
    (outcome : Except sig.Error α) (after : State) : Prop :=
  ∃ trace, body.Plays trace outcome ∧
    Executes performs rely before trace after

namespace Prog

variable {α β : Type} {body : Prog sig α}

theorem Runs.ret {value : α} {outcome : Except sig.Error α}
    (runs : (ret value : Prog sig α).Runs performs rely before outcome after) :
    outcome = .ok value ∧ rely before after := by
  rcases runs with ⟨trace, played, executes⟩
  obtain ⟨rfl, same⟩ := plays_ret_iff.mp played
  exact ⟨same, executes.after_nil⟩

theorem Runs.bind {next : α → Prog sig β} {outcome : Except sig.Error β}
    (refl : ∀ state, rely state state)
    (runs : (body.bind next).Runs performs rely before outcome after) :
    (∃ value middle, body.Runs performs rely before (.ok value) middle ∧
      (next value).Runs performs rely middle outcome after) ∨
    ∃ error, outcome = .error error ∧
      body.Runs performs rely before (.error error) after := by
  rcases runs with ⟨trace, played, executes⟩
  rcases plays_bind_iff.mp played with
    ⟨value, early, late, rfl, first, second⟩ | ⟨error, same, failed⟩
  · rcases executes.of_append refl with ⟨middle, earlier, later⟩
    exact Or.inl ⟨value, middle, ⟨early, first, earlier⟩,
      ⟨late, second, later⟩⟩
  · exact Or.inr ⟨error, same, trace, failed, executes⟩

theorem Runs.perform {command : sig.Command}
    {outcome : Except sig.Error (sig.Reply command)}
    (runs : (Prog.perform command).Runs performs rely before outcome after) :
    ∃ met left, rely before met ∧ performs met command outcome left ∧
      rely left after := by
  rcases runs with ⟨trace, played, executes⟩
  obtain rfl := plays_perform_iff.mp played
  rcases executes.after_cons with ⟨met, left, others, performed, rest⟩
  exact ⟨met, left, others, performed, rest.after_nil⟩

/-- What the others and the commands that the program may use preserve lasts
to its end. -/
theorem Runs.preserves (holds : State → Prop) {allowed : sig.Command → Prop}
    {outcome : Except sig.Error α}
    (runs : body.Runs performs rely before outcome after)
    (uses : body.Uses allowed)
    (others : ∀ first second, rely first second → holds first → holds second)
    (own : ∀ met command reply left, allowed command →
      performs met command reply left → holds met → holds left)
    (current : holds before) : holds after := by
  rcases runs with ⟨trace, played, executes⟩
  apply executes.preserves holds others _ current
  intro met command reply left performed member
  exact own met command reply left (played.uses uses _ member) performed

/-- The program, not always at its end, has come to the state. -/
def Visits
    (performs : State → (command : sig.Command) →
      Except sig.Error (sig.Reply command) → State → Prop)
    (rely : State → State → Prop) (body : Prog sig α)
    (before after : State) : Prop :=
  ∃ trace left, body.Leads trace left ∧
    Executes performs rely before trace after

theorem Visits.ret {value : α}
    (visits : (ret value : Prog sig α).Visits performs rely before after) :
    rely before after := by
  rcases visits with ⟨trace, left, leads, executes⟩
  obtain ⟨rfl, _⟩ := leads_ret_iff.mp leads
  exact executes.after_nil

theorem Visits.bind {next : α → Prog sig β}
    (refl : ∀ state, rely state state)
    (visits : (body.bind next).Visits performs rely before after) :
    body.Visits performs rely before after ∨
      ∃ value middle, body.Runs performs rely before (.ok value) middle ∧
        (next value).Visits performs rely middle after := by
  rcases visits with ⟨trace, left, leads, executes⟩
  rcases leads.of_bind with
    ⟨rest, inside, _⟩ | ⟨value, early, late, rfl, played, beyond⟩
  · exact Or.inl ⟨trace, rest, inside, executes⟩
  · rcases executes.of_append refl with ⟨middle, earlier, later⟩
    exact Or.inr ⟨value, middle, ⟨early, played, earlier⟩,
      ⟨late, left, beyond, later⟩⟩

theorem Visits.perform {command : sig.Command}
    (visits : (Prog.perform command).Visits performs rely before after) :
    rely before after ∨
      ∃ met reply left, rely before met ∧ performs met command reply left ∧
        rely left after := by
  rcases visits with ⟨trace, left, leads, executes⟩
  rcases leads_call_iff.mp leads with ⟨rfl, _⟩ | ⟨reply, rest, rfl, continues⟩
  · exact Or.inl executes.after_nil
  · rcases executes.after_cons with ⟨met, reached, moved, performed, later⟩
    have ended : rest = [] := by
      cases reply with
      | ok value => exact (leads_ret_iff.mp continues).1
      | error error => exact (leads_raise_iff.mp continues).1
    rw [ended] at later
    exact Or.inr ⟨met, reply, reached, moved, performed, later.after_nil⟩

theorem Runs.visits {outcome : Except sig.Error α}
    (runs : body.Runs performs rely before outcome after) :
    body.Visits performs rely before after := by
  rcases runs with ⟨trace, played, executes⟩
  exact ⟨trace, _, played, executes⟩

/-- A program whose commands can always be performed runs to an end. -/
theorem exists_runs {allowed : sig.Command → Prop}
    (refl : ∀ state, rely state state)
    (performable : ∀ state command, allowed command →
      ∃ reply left, performs state command reply left)
    (uses : body.Uses allowed) (before : State) :
    ∃ outcome after, body.Runs performs rely before outcome after := by
  induction body generalizing before with
  | ret value =>
      exact ⟨.ok value, before, [], plays_ret_iff.mpr ⟨rfl, rfl⟩,
        Executes.rest (refl before)⟩
  | raise error =>
      exact ⟨.error error, before, [], plays_raise_iff.mpr ⟨rfl, rfl⟩,
        Executes.rest (refl before)⟩
  | call command resume inductionHypothesis =>
      rcases performable before command uses.1 with ⟨reply, left, performed⟩
      rcases inductionHypothesis reply (uses.2 reply) left with
        ⟨outcome, after, trace, played, executes⟩
      exact ⟨outcome, after, ⟨command, reply⟩ :: trace, Leads.call played,
        Executes.step (refl before) performed executes⟩

end Prog

/-! ## A program alone -/

/-- The program from this state on, with no others, while every command has an
effect. -/
def Prog.alone {α : Type}
    (effect : State → (command : sig.Command) →
      Option (Except sig.Error (sig.Reply command) × State)) :
    Prog sig α → State → Option (Except sig.Error α × State)
  | .ret value, state => some (.ok value, state)
  | .raise error, state => some (.error error, state)
  | .call command resume, state =>
      (effect state command).bind fun done =>
        (resume done.1).alone effect done.2

/-- A program alone executes a trace. -/
theorem executes_alone {α : Type}
    {effect : State → (command : sig.Command) →
      Option (Except sig.Error (sig.Reply command) × State)}
    (refl : ∀ state, rely state state)
    {good : Answer sig → Prop}
    (proper : ∀ met command reply left, effect met command = some (reply, left) →
      performs met command reply left ∧ good ⟨command, reply⟩)
    {body : Prog sig α} {outcome : Except sig.Error α}
    (ran : body.alone effect before = some (outcome, after)) :
    ∃ trace, body.Plays trace outcome ∧
      Executes performs rely before trace after ∧ ∀ answer ∈ trace, good answer := by
  induction body generalizing before with
  | ret value =>
      cases ran
      exact ⟨[], Prog.plays_ret_iff.mpr ⟨rfl, rfl⟩, Executes.rest (refl _),
        by simp⟩
  | raise error =>
      cases ran
      exact ⟨[], Prog.plays_raise_iff.mpr ⟨rfl, rfl⟩, Executes.rest (refl _),
        by simp⟩
  | call command resume inductionHypothesis =>
      obtain ⟨⟨reply, left⟩, done, later⟩ := Option.bind_eq_some_iff.mp ran
      obtain ⟨performed, here⟩ := proper before command reply left done
      obtain ⟨trace, played, executes, all⟩ := inductionHypothesis reply later
      refine ⟨⟨command, reply⟩ :: trace, Prog.Leads.call played,
        Executes.step (refl before) performed executes, ?_⟩
      intro answer member
      rcases List.mem_cons.mp member with same | inTrace
      · rw [same]
        exact here
      · exact all answer inTrace

end Executes

section Continues

variable {sig : Signature} {State Tid Choice Env : Type} [DecidableEq Tid]

namespace System

/-- The steps of one task. -/
def performs (system : System sig State Tid Choice Env)
    (permit : Permit sig State Tid Choice Env) (task : Tid) (met : State)
    (command : sig.Command) (reply : Except sig.Error (sig.Reply command))
    (left : State) : Prop :=
  ∃ choice, permit.command met task command choice ∧
    system.exec met task command choice = some (reply, left)

/-- The runs in which nothing replaces the program of the task. -/
inductive Continues (system : System sig State Tid Choice Env)
    (permit : Permit sig State Tid Choice Env) (task : Tid)
    (start : Config sig State Tid) : Config sig State Tid → Prop
  | start : Continues system permit task start start
  | own {before after : Config sig State Tid} {choice : Choice} :
      Continues system permit task start before →
        permit.Allows before (.run task choice) →
          system.step before (.run task choice) = some after →
            Continues system permit task start after
  | others {before after : Config sig State Tid}
      {action : Action Tid Choice Env} :
      Continues system permit task start before →
        permit.Allows before action →
          system.step before action = some after →
            (∀ choice, action ≠ .run task choice) →
              after.tasks task = before.tasks task →
                Continues system permit task start after

variable {system : System sig State Tid Choice Env}
  {permit : Permit sig State Tid Choice Env} {task : Tid}
  {start config : Config sig State Tid} {rely : State → State → Prop}

/-- The task executes a trace of its program. -/
theorem Continues.executes {body : Prog sig Unit}
    (refl : ∀ state, rely state state)
    (trans : ∀ first second third,
      rely first second → rely second third → rely first third)
    (relied : ∀ before action after program,
      before.tasks task = some program → after.tasks task = some program →
        permit.Allows before action → system.step before action = some after →
          (∀ choice, action ≠ .run task choice) →
            rely before.shared after.shared)
    (continues : system.Continues permit task start config)
    (running : start.tasks task = some body) :
    ∃ trace left, config.tasks task = some left ∧ body.Leads trace left ∧
      Executes (system.performs permit task) rely start.shared trace
        config.shared := by
  induction continues with
  | start =>
      exact ⟨[], body, running, Prog.Leads.stay body,
        Executes.rest (refl start.shared)⟩
  | others _ allowed taken elsewhere same inductionHypothesis =>
      obtain ⟨trace, left, isLeft, leads, executes⟩ := inductionHypothesis
      have stillLeft := same.trans isLeft
      exact ⟨trace, left, stillLeft, leads, executes.others trans
        (relied _ _ _ left isLeft stillLeft allowed taken elsewhere)⟩
  | @own before after choice _ allowed taken inductionHypothesis =>
      obtain ⟨trace, left, isLeft, leads, executes⟩ := inductionHypothesis
      simp only [System.step, isLeft] at taken
      split at taken
      case h_2 => cases taken
      case h_1 command resume same =>
        cases same
        obtain ⟨⟨reply, reached⟩, executed, rfl⟩ :=
          Option.map_eq_some_iff.mp taken
        refine ⟨trace ++ [⟨command, reply⟩], resume reply,
          Function.update_self .., leads.snoc reply, ?_⟩
        exact executes.snoc refl
          ⟨choice, allowed command resume isLeft, executed⟩

end System

end Continues

end Effects
