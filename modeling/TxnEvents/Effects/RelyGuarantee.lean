import TxnEvents.Effects.Interleaving

/-!
# Rely-guarantee reasoning for interleaved programs

A discipline fixes an invariant of the shared state and, for every task, what
the other tasks and the environment may do to the state while that task waits.
`wp` is the weakest precondition of one program under a discipline: before
each command the others may have moved, the command must keep the invariant
and respect what the others rely on, and the rest of the program must be right
from there.

`Discipline.sound` assembles the tasks: when the programs that the system
starts are right one by one, the invariant holds in every reachable
configuration, under every interleaving.
-/

namespace Effects

variable {sig : Signature} {State Tid Choice Env : Type}

/-- An invariant, what a task owes when it issues a command, what each task
relies on, and the runs it is meant for. -/
structure Discipline (system : System sig State Tid Choice Env) where
  permit : Permit sig State Tid Choice Env
  inv : State → Prop
  owes : State → Tid → sig.Command → Prop
  rely : Tid → State → State → Prop
  rely_refl : ∀ task state, rely task state state
  rely_trans : ∀ task first second third,
    rely task first second → rely task second third → rely task first third

namespace Discipline

variable {system : System sig State Tid Choice Env}
  (discipline : Discipline system)

/-- What a step of `task` guarantees: it paid what the command owes, the
invariant holds, and so does what the others rely on. -/
structure Guarantee (task : Tid) (command : sig.Command)
    (before after : State) : Prop where
  owes : discipline.owes before task command
  inv : discipline.inv after
  rely : ∀ other, other ≠ task → discipline.rely other before after

/-- An assertion of `task` that the others cannot invalidate. -/
def Stable (task : Tid) (holds : State → Prop) : Prop :=
  ∀ before after, discipline.rely task before after →
    discipline.inv after → holds before → holds after

/-- Weakest precondition of a program of `task`: every outcome satisfies
`post`, and every command on the way keeps its guarantee. -/
def wp {α : Type} (task : Tid) :
    Prog sig α → (Except sig.Error α → State → Prop) → State → Prop
  | .ret value, post, state => post (.ok value) state
  | .raise error, post, state => post (.error error) state
  | .call command resume, post, state =>
      ∀ before, discipline.rely task state before → discipline.inv before →
        ∀ choice reply after,
          discipline.permit.command before task command choice →
            system.exec before task command choice = some (reply, after) →
              discipline.Guarantee task command before after ∧
                wp task (resume reply) post after

/-- Continue after `body` with `next`, or leave with its error. -/
def andThen {α β : Type} (task : Tid) (next : α → Prog sig β)
    (post : Except sig.Error β → State → Prop) :
    Except sig.Error α → State → Prop
  | .ok value, state => discipline.wp task (next value) post state
  | .error error, state => post (.error error) state

variable {discipline} {α β : Type} {task : Tid}

@[simp]
theorem wp_ret (value : α) (post : Except sig.Error α → State → Prop)
    (state : State) :
    discipline.wp task (.ret value) post state ↔ post (.ok value) state :=
  Iff.rfl

@[simp]
theorem wp_raise (error : sig.Error)
    (post : Except sig.Error α → State → Prop) (state : State) :
    discipline.wp task (.raise error) post state ↔
      post (.error error) state :=
  Iff.rfl

theorem wp_mono {body : Prog sig α}
    {strong weak : Except sig.Error α → State → Prop}
    (weaken : ∀ outcome state, strong outcome state → weak outcome state)
    {state : State} (right : discipline.wp task body strong state) :
    discipline.wp task body weak state := by
  induction body generalizing state with
  | ret value => exact weaken _ _ right
  | raise error => exact weaken _ _ right
  | call command resume inductionHypothesis =>
      intro before moved invariant choice reply after permitted taken
      obtain ⟨owed, rest⟩ :=
        right before moved invariant choice reply after permitted taken
      exact ⟨owed, inductionHypothesis reply rest⟩

/-- Programs that do the same after every reply do the same. -/
theorem wp_call_congr {command : sig.Command}
    {resume : Except sig.Error (sig.Reply command) → Prog sig α}
    {other : Except sig.Error (sig.Reply command) → Prog sig β}
    {post : Except sig.Error α → State → Prop}
    {otherPost : Except sig.Error β → State → Prop} {state : State}
    (same : ∀ reply after, discipline.wp task (resume reply) post after ↔
      discipline.wp task (other reply) otherPost after) :
    discipline.wp task (.call command resume) post state ↔
      discipline.wp task (.call command other) otherPost state := by
  constructor
  · intro right before moved invariant choice reply after permitted taken
    obtain ⟨owed, rest⟩ :=
      right before moved invariant choice reply after permitted taken
    exact ⟨owed, (same reply after).mp rest⟩
  · intro right before moved invariant choice reply after permitted taken
    obtain ⟨owed, rest⟩ :=
      right before moved invariant choice reply after permitted taken
    exact ⟨owed, (same reply after).mpr rest⟩

theorem wp_bind {body : Prog sig α} {next : α → Prog sig β}
    {post : Except sig.Error β → State → Prop} {state : State} :
    discipline.wp task (body.bind next) post state ↔
      discipline.wp task body (discipline.andThen task next post) state := by
  induction body generalizing state with
  | ret value => exact Iff.rfl
  | raise error => exact Iff.rfl
  | call command resume inductionHypothesis =>
      exact wp_call_congr fun reply _ => inductionHypothesis reply

theorem wp_attempt {body : Prog sig α}
    {post : Except sig.Error (Except sig.Error α) → State → Prop}
    {state : State} :
    discipline.wp task body.attempt post state ↔
      discipline.wp task body (fun outcome => post (.ok outcome)) state := by
  induction body generalizing state with
  | ret value => exact Iff.rfl
  | raise error => exact Iff.rfl
  | call command resume inductionHypothesis =>
      exact wp_call_congr fun reply _ => inductionHypothesis reply

/-- Sequencing: prove `body` with a postcondition of its own, then what
follows each outcome. -/
theorem wp_seq {body : Prog sig α} {next : α → Prog sig β}
    {post : Except sig.Error β → State → Prop}
    {middle : Except sig.Error α → State → Prop} {state : State}
    (first : discipline.wp task body middle state)
    (value : ∀ value state, middle (.ok value) state →
      discipline.wp task (next value) post state)
    (error : ∀ error state, middle (.error error) state →
      post (.error error) state) :
    discipline.wp task (body.bind next) post state := by
  refine wp_bind.mpr (wp_mono ?_ first)
  intro outcome reached middleHolds
  cases outcome with
  | ok result => exact value result reached middleHolds
  | error raised => exact error raised reached middleHolds

theorem wp_tryExcept {body : Prog sig α} {handler : sig.Error → Prog sig α}
    {post : Except sig.Error α → State → Prop}
    {middle : Except sig.Error α → State → Prop} {state : State}
    (first : discipline.wp task body middle state)
    (value : ∀ value state, middle (.ok value) state →
      post (.ok value) state)
    (handled : ∀ error state, middle (.error error) state →
      discipline.wp task (handler error) post state) :
    discipline.wp task (body.tryExcept handler) post state := by
  refine wp_bind.mpr (wp_attempt.mpr (wp_mono ?_ first))
  intro outcome reached middleHolds
  cases outcome with
  | ok result => exact value result reached middleHolds
  | error raised => exact handled raised reached middleHolds

/-- An assertion that no step takes back can be carried past a program. -/
theorem wp_frame {body : Prog sig α}
    {post : Except sig.Error α → State → Prop} {frame : State → Prop}
    (stable : discipline.Stable task frame)
    (kept : ∀ command before choice reply after, frame before →
      system.exec before task command choice = some (reply, after) →
        frame after)
    {state : State} (current : frame state)
    (right : discipline.wp task body post state) :
    discipline.wp task body
      (fun outcome after => post outcome after ∧ frame after) state := by
  induction body generalizing state with
  | ret value => exact ⟨right, current⟩
  | raise error => exact ⟨right, current⟩
  | call command resume inductionHypothesis =>
      intro before moved invariant choice reply after permitted taken
      obtain ⟨owed, rest⟩ :=
        right before moved invariant choice reply after permitted taken
      have framed := stable state before moved invariant current
      have left := kept command before choice reply after framed taken
      exact ⟨owed, inductionHypothesis reply left rest⟩

/-- One command, from an assertion the others cannot invalidate. -/
theorem wp_perform {command : sig.Command}
    {post : Except sig.Error (sig.Reply command) → State → Prop}
    {holds : State → Prop} {state : State}
    (stable : discipline.Stable task holds) (current : holds state)
    (effect : ∀ before choice reply after,
      discipline.inv before → holds before →
        discipline.permit.command before task command choice →
          system.exec before task command choice = some (reply, after) →
            discipline.Guarantee task command before after ∧ post reply after) :
    discipline.wp task (Prog.perform command) post state := by
  intro before moved invariant choice reply after permitted taken
  obtain ⟨owed, reached⟩ :=
    effect before choice reply after invariant
      (stable state before moved invariant current) permitted taken
  refine ⟨owed, ?_⟩
  cases reply with
  | ok value => exact reached
  | error error => exact reached

/-- A loop over a list, from an invariant that speaks of the items still to
come. -/
theorem wp_forEach {body : α → Prog sig Unit}
    {post : Except sig.Error Unit → State → Prop}
    {remaining : List α → State → Prop}
    (iteration : ∀ item rest state, remaining (item :: rest) state →
      discipline.wp task (body item)
        (fun outcome after =>
          match outcome with
          | .ok () => remaining rest after
          | .error error => post (.error error) after)
        state)
    (done : ∀ state, remaining [] state → post (.ok ()) state)
    (items : List α) {state : State} (initial : remaining items state) :
    discipline.wp task (Prog.forEach items body) post state := by
  induction items generalizing state with
  | nil => exact done state initial
  | cons item rest inductionHypothesis =>
      refine wp_seq (iteration item rest state initial) ?_ ?_
      · intro _ reached left
        exact inductionHypothesis left
      · intro error reached raised
        exact raised

/-- A program all of whose commands keep an assertion keeps it, whatever the
replies and however it ends. -/
theorem wp_of_uses {allowed : sig.Command → Prop} {holds : State → Prop}
    (stable : discipline.Stable task holds)
    (preserved : ∀ command before choice reply after, allowed command →
      discipline.inv before → holds before →
        discipline.permit.command before task command choice →
          system.exec before task command choice = some (reply, after) →
            discipline.Guarantee task command before after ∧ holds after)
    {body : Prog sig α} (uses : body.Uses allowed)
    {state : State} (current : holds state) :
    discipline.wp task body (fun _ after => holds after) state := by
  induction body generalizing state with
  | ret value => exact current
  | raise error => exact current
  | call command resume inductionHypothesis =>
      intro before moved invariant choice reply after permitted taken
      obtain ⟨owed, kept⟩ :=
        preserved command before choice reply after uses.1 invariant
          (stable state before moved invariant current) permitted taken
      exact ⟨owed, inductionHypothesis reply (uses.2 reply) kept⟩

/-- A weakest precondition with a stable postcondition is itself stable. -/
theorem wp_stable {body : Prog sig α}
    {post : Except sig.Error α → State → Prop}
    (stable : ∀ outcome, discipline.Stable task (post outcome)) :
    discipline.Stable task (discipline.wp task body post) := by
  intro before after moved invariant right
  cases body with
  | ret value => exact stable _ before after moved invariant right
  | raise error => exact stable _ before after moved invariant right
  | call command resume =>
      intro later movedAgain
      exact right later (discipline.rely_trans task _ _ _ moved movedAgain)

section Soundness

/-- What a task's program is held to: `post` when it returns, nothing when
an error escapes it. -/
def returns (post : State → Prop) :
    Except sig.Error Unit → State → Prop
  | .ok (), state => post state
  | .error _, _ => True

variable (discipline)

/-- The invariant holds and every running program is right. -/
def Good (post : Tid → State → Prop) (config : Config sig State Tid) : Prop :=
  discipline.inv config.shared ∧
    ∀ task program, config.tasks task = some program →
      discipline.wp task program (returns (post task)) config.shared

variable {discipline}

/-- In a good configuration the next command of a task is paid for. -/
theorem Good.owes {post : Tid → State → Prop}
    {config : Config sig State Tid} (good : discipline.Good post config)
    {task : Tid} {command : sig.Command}
    {resume : Except sig.Error (sig.Reply command) → Prog sig Unit}
    (current : config.tasks task = some (.call command resume))
    {choice : Choice} {reply : Except sig.Error (sig.Reply command)}
    {after : State}
    (permitted : discipline.permit.command config.shared task command choice)
    (taken :
      system.exec config.shared task command choice = some (reply, after)) :
    discipline.owes config.shared task command :=
  (good.2 task _ current config.shared (discipline.rely_refl task _) good.1
    choice reply after permitted taken).1.owes

variable [DecidableEq Tid]

/-- Every reachable configuration is good, when the programs the system
starts with, goes on with, and lets the environment start are right. -/
theorem sound {post : Tid → State → Prop} {start : Config sig State Tid}
    (stable : ∀ task, discipline.Stable task (post task))
    (initial : discipline.Good post start)
    (next : ∀ finished state tasks,
      system.Reachable discipline.permit start ⟨state, tasks⟩ →
        discipline.inv state → tasks finished = some (.ret ()) →
          post finished state →
            ∀ task program, system.next finished tasks task = some program →
              tasks task = some program ∨
                discipline.wp task program (returns (post task)) state)
    (env : ∀ event before tasks after tasksAfter,
      system.Reachable discipline.permit start ⟨before, tasks⟩ →
        discipline.inv before → discipline.permit.env before event →
          system.env event before tasks = some (after, tasksAfter) →
            discipline.inv after ∧
              ∀ task program, tasksAfter task = some program →
                (tasks task = some program ∧
                    discipline.rely task before after) ∨
                  discipline.wp task program (returns (post task)) after)
    {config : Config sig State Tid}
    (reachable : system.Reachable discipline.permit start config) :
    discipline.Good post config := by
  have outcomeStable : ∀ task (outcome : Except sig.Error Unit),
      discipline.Stable task (returns (post task) outcome) := by
    intro task outcome
    cases outcome with
    | ok value => exact stable task
    | error error => exact fun _ _ _ _ _ => trivial
  induction reachable with
  | start => exact initial
  | @step first second action earlier allowed taken inductionHypothesis =>
      obtain ⟨before, tasks⟩ := first
      obtain ⟨invariant, right⟩ := inductionHypothesis
      cases System.step_cases taken with
      | @ran task choice command resume reply reached current executed same =>
          rw [same]
          obtain ⟨owed, rest⟩ :=
            right task _ current before (discipline.rely_refl task before)
              invariant choice reply reached
              (allowed command resume current) executed
          refine ⟨owed.inv, ?_⟩
          intro other program running
          by_cases own : other = task
          · subst other
            simp only [Function.update_self] at running
            cases running
            exact rest
          · simp only [Function.update_of_ne own] at running
            exact wp_stable (outcomeStable other) before reached
              (owed.rely other own) owed.inv (right other program running)
      | @finished task current same =>
          rw [same]
          refine ⟨invariant, ?_⟩
          intro other program running
          rcases next task before tasks earlier invariant current
              (right task _ current) other program running with
            unchanged | started
          · exact right other program unchanged
          · exact started
      | happened occurred =>
          obtain ⟨kept, running⟩ :=
            env _ before tasks _ _ earlier invariant allowed occurred
          refine ⟨kept, ?_⟩
          intro task program current
          rcases running task program current with
            ⟨unchanged, moved⟩ | started
          · exact wp_stable (outcomeStable task) before _ moved kept
              (right task program unchanged)
          · exact started

/-- Induction over the runs of a discipline: every command of every task pays
what it owes. -/
theorem invariant {post : Tid → State → Prop} {start : Config sig State Tid}
    {permit : Permit sig State Tid Choice Env}
    (good : ∀ config, system.Reachable permit start config →
      discipline.Good post config)
    (within : ∀ state task command choice,
      permit.command state task command choice →
        discipline.permit.command state task command choice)
    {holds : State → Prop} (initial : holds start.shared)
    (command : ∀ config task command resume choice reply after,
      system.Reachable permit start config →
        config.tasks task = some (.call command resume) →
          permit.command config.shared task command choice →
            discipline.inv config.shared →
              discipline.owes config.shared task command →
                system.exec config.shared task command choice =
                    some (reply, after) →
                  holds config.shared → holds after)
    (event : ∀ config event after tasksAfter,
      system.Reachable permit start config →
        permit.env config.shared event → discipline.inv config.shared →
          system.env event config.shared config.tasks =
              some (after, tasksAfter) →
            holds config.shared → holds after)
    {config : Config sig State Tid}
    (reachable : system.Reachable permit start config) :
    holds config.shared := by
  induction reachable with
  | start => exact initial
  | @step first second action earlier allowed taken inductionHypothesis =>
      have goodBefore := good first earlier
      cases System.step_cases taken with
      | @ran task choice issued resume reply reached current executed same =>
          rw [same]
          have permitted := allowed issued resume current
          have owes := goodBefore.owes current
            (within _ _ _ _ permitted) executed
          exact command first task issued resume choice reply reached
            earlier current permitted goodBefore.1 owes executed
            inductionHypothesis
      | finished _ same =>
          rw [same]
          exact inductionHypothesis
      | happened occurred =>
          exact event first _ _ _ earlier allowed goodBefore.1 occurred
            inductionHypothesis

end Soundness

end Discipline

end Effects
