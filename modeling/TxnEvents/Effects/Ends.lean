import TxnEvents.Effects.Alone

/-!
# How a program can end

Which outcomes a program has can often be told from its text and from what its
commands may be answered, without a look at the state.  `Ends` is that
judgement, and `Reachable.ends` carries it through the runs of a system.
-/

namespace Effects

namespace Prog

variable {sig : Signature} {α β : Type}

/-- As long as every answer satisfies `given`, the program has only outcomes
that satisfy `post`. -/
def Ends (given : (command : sig.Command) →
    Except sig.Error (sig.Reply command) → Prop) :
    Prog sig α → (Except sig.Error α → Prop) → Prop
  | ret value, post => post (.ok value)
  | raise error, post => post (.error error)
  | call command resume, post =>
      ∀ reply, given command reply → (resume reply).Ends given post

section Ends

variable {given : (command : sig.Command) →
    Except sig.Error (sig.Reply command) → Prop}
  {middle post : Except sig.Error α → Prop}

theorem Ends.mono {body : Prog sig α} (ends : body.Ends given middle)
    (weaken : ∀ outcome, middle outcome → post outcome) :
    body.Ends given post := by
  induction body with
  | ret value => exact weaken _ ends
  | raise error => exact weaken _ ends
  | call command resume inductionHypothesis =>
      intro reply answered
      exact inductionHypothesis reply (ends reply answered)

/-- More is known of the answers. -/
theorem Ends.given_mono {weak : (command : sig.Command) →
      Except sig.Error (sig.Reply command) → Prop} {body : Prog sig α}
    (stronger : ∀ command reply, given command reply → weak command reply)
    (ends : body.Ends weak post) : body.Ends given post := by
  induction body with
  | ret value => exact ends
  | raise error => exact ends
  | call command resume inductionHypothesis =>
      intro reply answered
      exact inductionHypothesis reply
        (ends reply (stronger command reply answered))

theorem Ends.ofExcept {outcome : Except sig.Error α} (holds : post outcome) :
    (Prog.ofExcept outcome).Ends given post := by
  cases outcome with
  | ok value => exact holds
  | error error => exact holds

theorem Ends.perform {command : sig.Command}
    {post : Except sig.Error (sig.Reply command) → Prop}
    (answers : ∀ reply, given command reply → post reply) :
    (Prog.perform command).Ends given post :=
  fun reply answered => Ends.ofExcept (answers reply answered)

theorem Ends.bind {body : Prog sig α} {next : α → Prog sig β}
    {post : Except sig.Error β → Prop} (first : body.Ends given middle)
    (value : ∀ value, middle (.ok value) → (next value).Ends given post)
    (error : ∀ error, middle (.error error) → post (.error error)) :
    (body.bind next).Ends given post := by
  induction body with
  | ret result => exact value result first
  | raise raised => exact error raised first
  | call command resume inductionHypothesis =>
      intro reply answered
      exact inductionHypothesis reply (first reply answered)

theorem Ends.attempt {body : Prog sig α}
    {post : Except sig.Error (Except sig.Error α) → Prop}
    (first : body.Ends given middle)
    (holds : ∀ outcome, middle outcome → post (.ok outcome)) :
    body.attempt.Ends given post := by
  induction body with
  | ret value => exact holds _ first
  | raise error => exact holds _ first
  | call command resume inductionHypothesis =>
      intro reply answered
      exact inductionHypothesis reply (first reply answered)

theorem Ends.tryExcept {body : Prog sig α} {handler : sig.Error → Prog sig α}
    (first : body.Ends given middle)
    (value : ∀ value, middle (.ok value) → post (.ok value))
    (handled : ∀ error, middle (.error error) →
      (handler error).Ends given post) :
    (body.tryExcept handler).Ends given post := by
  have attempted : body.attempt.Ends given fun outcome =>
      ∃ ended, outcome = .ok ended ∧ middle ended :=
    first.attempt fun ended holds => ⟨ended, rfl, holds⟩
  refine Ends.bind attempted ?_ ?_
  · intro outcome reached
    rcases reached with ⟨ended, same, holds⟩
    cases same
    cases outcome with
    | ok result => exact value result holds
    | error error => exact handled error holds
  · intro error reached
    rcases reached with ⟨ended, same, _⟩
    cases same

/-- Nothing is known of the outcome. -/
theorem ends_any (body : Prog sig α) : body.Ends given fun _ => True := by
  induction body with
  | ret value => exact trivial
  | raise error => exact trivial
  | call command resume inductionHypothesis =>
      exact fun reply _ => inductionHypothesis reply

theorem Ends.forEach {items : List α} {body : α → Prog sig Unit}
    {post : Except sig.Error Unit → Prop} (done : post (.ok ()))
    (each : ∀ item ∈ items, (body item).Ends given post) :
    (forEach items body).Ends given post := by
  induction items with
  | nil => exact done
  | cons item rest inductionHypothesis =>
      refine Ends.bind (each item List.mem_cons_self) ?_ fun _ holds => holds
      intro finished _
      exact inductionHypothesis fun other member =>
        each other (List.mem_cons_of_mem item member)

end Ends

end Prog

variable {sig : Signature} {State Tid Choice Env : Type}
  {system : System sig State Tid Choice Env}

/-- A program that is right under a discipline has only the outcomes that its
text allows. -/
theorem Discipline.wp_ends {discipline : Discipline system} {α : Type}
    {task : Tid} {body : Prog sig α}
    {given : (command : sig.Command) →
      Except sig.Error (sig.Reply command) → Prop}
    {possible : Except sig.Error α → Prop}
    {post : Except sig.Error α → State → Prop} {state : State}
    (answers : ∀ before command choice reply after,
      system.exec before task command choice = some (reply, after) →
        given command reply)
    (ends : body.Ends given possible)
    (right : discipline.wp task body post state) :
    discipline.wp task body
      (fun outcome after => post outcome after ∧ possible outcome) state := by
  induction body generalizing state with
  | ret value => exact ⟨right, ends⟩
  | raise error => exact ⟨right, ends⟩
  | call command resume inductionHypothesis =>
      intro before moved invariant choice reply after permitted taken
      rcases right before moved invariant choice reply after permitted taken
        with ⟨owed, rest⟩
      have answered := answers before command choice reply after taken
      exact ⟨owed, inductionHypothesis reply (ends reply answered) rest⟩

/-- What the programs of a task can end in, in every run whose answers are as
`given`. -/
theorem System.Reachable.ends [DecidableEq Tid]
    {permit : Permit sig State Tid Choice Env}
    {start config : Config sig State Tid}
    {given : Tid → (command : sig.Command) →
      Except sig.Error (sig.Reply command) → Prop}
    {post : Tid → Except sig.Error Unit → Prop}
    (answers : ∀ config task command resume choice reply after,
      system.Reachable permit start config →
        config.tasks task = some (.call command resume) →
          permit.command config.shared task command choice →
            system.exec config.shared task command choice =
                some (reply, after) → given task command reply)
    (begun : ∀ task program, start.tasks task = some program →
      program.Ends (given task) (post task))
    (followed : ∀ finished tasks task program,
      system.next finished tasks task = some program →
        tasks task = some program ∨ program.Ends (given task) (post task))
    (happened : ∀ event state tasks after tasksAfter task program,
      system.env event state tasks = some (after, tasksAfter) →
        tasksAfter task = some program →
          tasks task = some program ∨ program.Ends (given task) (post task))
    (reachable : system.Reachable permit start config) :
    ∀ task program, config.tasks task = some program →
      program.Ends (given task) (post task) := by
  refine reachable.programs ?_ begun followed happened
  intro before task command resume choice reply after earlier current permitted
    taken ends
  exact ends reply (answers before task command resume choice reply after
    earlier current permitted taken)

end Effects
