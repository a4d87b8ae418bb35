import TxnEvents.Effects.Program

/-!
# Commands that are followed at once

What a program issues next is its head.  A program is prompt when every answer
that calls for a certain command is followed by that command, before any other
one and before the program ends.
-/

namespace Effects

namespace Prog

variable {sig : Signature} {α β : Type}

/-- The command that the program issues next. -/
def head : Prog sig α → Option sig.Command
  | ret _ => none
  | raise _ => none
  | call command _ => some command

theorem head_bind {body : Prog sig α} {next : α → Prog sig β}
    {command : sig.Command} (heads : body.head = some command) :
    (body.bind next).head = some command := by
  cases body with
  | ret value => cases heads
  | raise error => cases heads
  | call first resume => exact heads

theorem head_attempt {body : Prog sig α} {command : sig.Command}
    (heads : body.head = some command) :
    body.attempt.head = some command := by
  cases body with
  | ret value => cases heads
  | raise error => cases heads
  | call first resume => exact heads

/-- `due` says which command an answer calls for, if any. -/
def Prompt (due : (command : sig.Command) →
    Except sig.Error (sig.Reply command) → Option sig.Command) :
    Prog sig α → Prop
  | ret _ => True
  | raise _ => True
  | call command resume => ∀ reply,
      (∀ next, due command reply = some next →
        (resume reply).head = some next) ∧
      (resume reply).Prompt due

section Prompt

variable {due : (command : sig.Command) →
  Except sig.Error (sig.Reply command) → Option sig.Command}

/-- A program with no command whose answers call for another one. -/
theorem Prompt.of_uses {body : Prog sig α}
    (uses : body.Uses fun command => ∀ reply, due command reply = none) :
    body.Prompt due := by
  induction body with
  | ret value => exact trivial
  | raise error => exact trivial
  | call command resume inductionHypothesis =>
      intro reply
      refine ⟨?_, inductionHypothesis reply (uses.2 reply)⟩
      intro next called
      rw [uses.1 reply] at called
      cases called

theorem Prompt.ofExcept (outcome : Except sig.Error α) :
    (Prog.ofExcept outcome).Prompt due := by
  cases outcome with
  | ok value => exact trivial
  | error error => exact trivial

theorem Prompt.bind {body : Prog sig α} {next : α → Prog sig β}
    (first : body.Prompt due) (rest : ∀ value, (next value).Prompt due) :
    (body.bind next).Prompt due := by
  induction body with
  | ret value => exact rest value
  | raise error => exact trivial
  | call command resume inductionHypothesis =>
      intro reply
      exact ⟨fun called same => head_bind ((first reply).1 called same),
        inductionHypothesis reply (first reply).2⟩

theorem Prompt.attempt {body : Prog sig α} (inside : body.Prompt due) :
    body.attempt.Prompt due := by
  induction body with
  | ret value => exact trivial
  | raise error => exact trivial
  | call command resume inductionHypothesis =>
      intro reply
      exact ⟨fun called same => head_attempt ((inside reply).1 called same),
        inductionHypothesis reply (inside reply).2⟩

theorem Prompt.tryExcept {body : Prog sig α}
    {handler : sig.Error → Prog sig α} (inside : body.Prompt due)
    (handled : ∀ error, (handler error).Prompt due) :
    (body.tryExcept handler).Prompt due := by
  refine Prompt.bind inside.attempt ?_
  intro outcome
  cases outcome with
  | ok value => exact trivial
  | error error => exact handled error

theorem Prompt.forEach {items : List α} {body : α → Prog sig Unit}
    (each : ∀ item ∈ items, (body item).Prompt due) :
    (forEach items body).Prompt due := by
  induction items with
  | nil => exact trivial
  | cons item rest inductionHypothesis =>
      apply Prompt.bind (each item List.mem_cons_self)
      intro finished
      exact inductionHypothesis fun other member =>
        each other (List.mem_cons_of_mem item member)

end Prompt

end Prog

end Effects
