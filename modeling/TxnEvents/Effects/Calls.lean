import TxnEvents.Effects.Program

/-!
# Programs whose commands are calls

A program over an interface calls other programs by name and is answered with
what they return or raise.  Linking puts the called programs in the place of
the calls.  It commutes with the ways of putting programs together, so a
program is shown to be a linked one by rewriting.
-/

namespace Effects

/-- Programs that can be called, and what each returns. -/
structure Interface where
  Name : Type
  Result : Name → Type

/-- The calls of an interface as commands. -/
abbrev Interface.calls (interface : Interface) (sig : Signature) : Signature where
  Command := interface.Name
  Reply := interface.Result
  Error := sig.Error

/-- A program for every name. -/
abbrev Callees (interface : Interface) (sig : Signature) : Type :=
  (name : interface.Name) → Prog sig (interface.Result name)

namespace Prog

variable {sig : Signature} {interface : Interface} {α β : Type}

/-- The program with its calls carried out. -/
def link (callees : Callees interface sig) :
    Prog (interface.calls sig) α → Prog sig α
  | ret value => ret value
  | raise error => raise error
  | call name resume =>
      (callees name).attempt.bind fun reply => (resume reply).link callees

/-- What raises goes on with its error. -/
theorem attempt_bind_ofExcept (body : Prog sig α) :
    body.attempt.bind ofExcept = body := by
  induction body with
  | ret value => rfl
  | raise error => rfl
  | call command resume inductionHypothesis =>
      rw [attempt, bind]
      congr
      funext reply
      exact inductionHypothesis reply

/-- A body that was tried raises nothing itself. -/
theorem attempt_attempt_bind (body : Prog sig α)
    (next : Except sig.Error α → Prog sig β) :
    (body.attempt.bind next).attempt =
      body.attempt.bind fun ended => (next ended).attempt := by
  induction body with
  | ret value => rfl
  | raise error => rfl
  | call command resume inductionHypothesis =>
      simp only [attempt, bind]
      congr
      funext reply
      exact inductionHypothesis reply

section Link

variable (callees : Callees interface sig)

@[simp]
theorem link_ret (value : α) :
    (ret value : Prog (interface.calls sig) α).link callees = ret value :=
  rfl

@[simp]
theorem link_raise (error : sig.Error) :
    (raise error : Prog (interface.calls sig) α).link callees = raise error :=
  rfl

@[simp]
theorem link_ofExcept (outcome : Except sig.Error α) :
    (ofExcept outcome : Prog (interface.calls sig) α).link callees =
      ofExcept outcome := by
  cases outcome with
  | ok value => rfl
  | error error => rfl

/-- A call alone is the called program. -/
@[simp]
theorem link_perform (name : interface.Name) :
    (@perform (interface.calls sig) name).link callees = callees name := by
  simp only [perform, link, link_ofExcept]
  exact attempt_bind_ofExcept (callees name)

@[simp]
theorem link_bind (body : Prog (interface.calls sig) α)
    (next : α → Prog (interface.calls sig) β) :
    (body.bind next).link callees =
      (body.link callees).bind fun value => (next value).link callees := by
  induction body with
  | ret value => rfl
  | raise error => rfl
  | call name resume inductionHypothesis =>
      simp only [bind, link, inductionHypothesis, bind_assoc]

@[simp]
theorem link_attempt (body : Prog (interface.calls sig) α) :
    body.attempt.link callees = (body.link callees).attempt := by
  induction body with
  | ret value => rfl
  | raise error => rfl
  | call name resume inductionHypothesis =>
      simp only [attempt, link, inductionHypothesis, attempt_attempt_bind]

end Link

end Prog

end Effects
