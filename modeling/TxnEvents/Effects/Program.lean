/-!
# Programs with effects

A program is a finite tree: it returns, it raises an error, or it issues one
command and goes on with the reply.  Every command may be answered with an
error instead of a reply, and the error is then raised at that point, as an
awaited call does in a language with exceptions.

Nothing here says what a command does.  `Effects.System` gives commands a
meaning on a state that several programs share, and `Effects.wp` is the proof
rule for one program among others.
-/

namespace Effects

/-- The commands a program may issue, what each is answered with, and the
errors that can be raised. -/
structure Signature where
  Command : Type
  Reply : Command → Type
  Error : Type

/-- Programs over a signature that return an `α`. -/
inductive Prog (sig : Signature) (α : Type) : Type
  | ret (value : α)
  | raise (error : sig.Error)
  | call (command : sig.Command)
      (resume : Except sig.Error (sig.Reply command) → Prog sig α)

namespace Prog

variable {sig : Signature} {α β γ : Type}

/-- Run `body`, then go on with its value.  An error skips `next`. -/
def bind (body : Prog sig α) (next : α → Prog sig β) : Prog sig β :=
  match body with
  | ret value => next value
  | raise error => raise error
  | call command resume =>
      call command fun reply => (resume reply).bind next

instance : Monad (Prog sig) where
  pure := ret
  bind := bind

/-- Return the value of an outcome, or raise its error. -/
def ofExcept : Except sig.Error α → Prog sig α
  | .ok value => ret value
  | .error error => raise error

/-- Issue one command and return its reply. -/
def perform (command : sig.Command) : Prog sig (sig.Reply command) :=
  call command ofExcept

/-- Run `body` to its end and return how it ended. -/
def attempt (body : Prog sig α) : Prog sig (Except sig.Error α) :=
  match body with
  | ret value => ret (.ok value)
  | raise error => ret (.error error)
  | call command resume =>
      call command fun reply => (resume reply).attempt

/-- `try body except error: handler error`.  The handler's own errors are
not caught. -/
def tryExcept (body : Prog sig α) (handler : sig.Error → Prog sig α) :
    Prog sig α :=
  body.attempt.bind fun outcome =>
    match outcome with
    | .ok value => ret value
    | .error error => handler error

/-- `for item in items: body item`. -/
def forEach (items : List α) (body : α → Prog sig Unit) : Prog sig Unit :=
  match items with
  | [] => ret ()
  | item :: rest => (body item).bind fun _ => forEach rest body

/-- How a program ends when the same question always gets the same answer. -/
def endsWith (answer : (command : sig.Command) →
    Except sig.Error (sig.Reply command)) : Prog sig α → Except sig.Error α
  | ret value => .ok value
  | raise error => .error error
  | call command resume => (resume (answer command)).endsWith answer

/-- Every command the program may issue satisfies `allowed`. -/
def Uses (allowed : sig.Command → Prop) : Prog sig α → Prop
  | ret _ => True
  | raise _ => True
  | call command resume =>
      allowed command ∧ ∀ reply, Uses allowed (resume reply)

@[simp]
theorem pure_eq_ret (value : α) :
    (pure value : Prog sig α) = ret value :=
  rfl

@[simp]
theorem monadBind_eq_bind (body : Prog sig α) (next : α → Prog sig β) :
    (body >>= next) = body.bind next :=
  rfl

@[simp]
theorem ret_bind (value : α) (next : α → Prog sig β) :
    (ret value).bind next = next value :=
  rfl

@[simp]
theorem raise_bind (error : sig.Error) (next : α → Prog sig β) :
    (raise error : Prog sig α).bind next = raise error :=
  rfl

theorem bind_assoc (body : Prog sig α) (next : α → Prog sig β)
    (final : β → Prog sig γ) :
    (body.bind next).bind final =
      body.bind fun value => (next value).bind final := by
  induction body with
  | ret value => rfl
  | raise error => rfl
  | call command resume inductionHypothesis =>
      have later : (fun reply => ((resume reply).bind next).bind final) =
          fun reply => (resume reply).bind fun value =>
            (next value).bind final :=
        funext inductionHypothesis
      rw [bind, bind, bind, later]

section Uses

variable {allowed : sig.Command → Prop}

theorem Uses.ofExcept (outcome : Except sig.Error α) :
    Uses allowed (Prog.ofExcept outcome) := by
  cases outcome with
  | ok value => exact trivial
  | error error => exact trivial

theorem Uses.perform {command : sig.Command} (here : allowed command) :
    Uses allowed (Prog.perform command) :=
  ⟨here, fun reply => Uses.ofExcept reply⟩

theorem Uses.bind {body : Prog sig α} {next : α → Prog sig β}
    (first : Uses allowed body)
    (rest : ∀ value, Uses allowed (next value)) :
    Uses allowed (body.bind next) := by
  induction body with
  | ret value => exact rest value
  | raise error => exact trivial
  | call command resume inductionHypothesis =>
      exact ⟨first.1, fun reply => inductionHypothesis reply (first.2 reply)⟩

theorem Uses.attempt {body : Prog sig α} (inside : Uses allowed body) :
    Uses allowed body.attempt := by
  induction body with
  | ret value => exact trivial
  | raise error => exact trivial
  | call command resume inductionHypothesis =>
      exact ⟨inside.1, fun reply => inductionHypothesis reply (inside.2 reply)⟩

theorem Uses.tryExcept {body : Prog sig α} {handler : sig.Error → Prog sig α}
    (inside : Uses allowed body)
    (handled : ∀ error, Uses allowed (handler error)) :
    Uses allowed (body.tryExcept handler) := by
  refine Uses.bind inside.attempt ?_
  intro outcome
  cases outcome with
  | ok value => exact trivial
  | error error => exact handled error

theorem Uses.forEach
    {items : List α}
    {body : α → Prog sig Unit}
    (each : ∀ item ∈ items, Uses allowed (body item)) :
    Uses allowed (forEach items body) := by
  induction items with
  | nil => exact trivial
  | cons item rest inductionHypothesis =>
      apply Uses.bind (each item List.mem_cons_self)
      intro finished
      exact inductionHypothesis fun other member =>
        each other (List.mem_cons_of_mem item member)

theorem Uses.mono {wider : sig.Command → Prop} {body : Prog sig α}
    (inside : Uses allowed body)
    (weaken : ∀ command, allowed command → wider command) :
    Uses wider body := by
  induction body with
  | ret value => exact trivial
  | raise error => exact trivial
  | call command resume inductionHypothesis =>
      exact ⟨weaken command inside.1,
        fun reply => inductionHypothesis reply (inside.2 reply)⟩

end Uses

end Prog

end Effects
