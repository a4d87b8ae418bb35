import TxnEvents.Core.Retry
import TxnEvents.Effects.RelyGuarantee
import TxnEvents.System.Frames

/-!
# Proof rules for the commands of the system

The rules of a discipline at the types of this system: one command, and the
retry loop, before each attempt of which an assertion holds that a failing
attempt and the pause after it keep.
-/

namespace TxnEvents

open Effects Python App

section Rules

variable {world : World} {discipline : Discipline (system world)}
  {task : Tid} {holds : State → Prop}

theorem wp_ask {command : Command}
    {post : Except PyException command.Reply → State → Prop}
    {state : State} (stable : discipline.Stable task holds)
    (current : holds state)
    (effect : ∀ before choice reply after, discipline.inv before →
      holds before → discipline.permit.command before task command choice →
        exec world before task command choice = some (reply, after) →
          discipline.Guarantee task command before after ∧ post reply after) :
    discipline.wp task (ask command) post state :=
  Discipline.wp_perform stable current effect

/-- The assertion still holds, and an error is no exception of the program's
own. -/
def Calm {α : Type} (holds : State → Prop) :
    Except PyException α → State → Prop
  | .ok _, state => holds state
  | .error error, state => holds state ∧ error.cls.isOwn = false

/-- A command that keeps the assertion. -/
theorem wp_ask_calm {command : Command} {state : State}
    (stable : discipline.Stable task holds) (current : holds state)
    (kept : ∀ before choice reply after, discipline.inv before →
      holds before → discipline.permit.command before task command choice →
        exec world before task command choice = some (reply, after) →
          discipline.Guarantee task command before after ∧ holds after) :
    discipline.wp task (ask command) (Calm holds) state := by
  refine wp_ask stable current ?_
  intro before choice reply after invariant held permitted taken
  obtain ⟨owed, still⟩ :=
    kept before choice reply after invariant held permitted taken
  refine ⟨owed, ?_⟩
  cases reply with
  | ok value => exact still
  | error error => exact ⟨still, error_foreign taken⟩

/-- The commands of a pause between two attempts. -/
def Command.Pausing : Command → Prop
  | random => True
  | sleep _ => True
  | inc _ => True
  | _ => False

/-- The discipline lets a task pause. -/
def MayPause (discipline : Discipline (system world)) (task : Tid)
    (holds : State → Prop) : Prop :=
  ∀ command : Command, command.Pausing →
    ∀ before choice reply after, discipline.inv before → holds before →
      discipline.permit.command before task command choice →
        exec world before task command choice = some (reply, after) →
          discipline.Guarantee task command before after ∧ holds after

theorem wp_computeDelay (stable : discipline.Stable task holds)
    (pause : MayPause discipline task holds)
    (attempt : Nat) (baseDelay maxDelay : ℚ) {state : State}
    (current : holds state) :
    discipline.wp task (computeDelay attempt baseDelay maxDelay)
      (Calm holds) state := by
  unfold computeDelay
  split
  case h_1 => exact ⟨current, rfl⟩
  case h_2 product =>
    refine Discipline.wp_seq
      (wp_ask_calm stable current (pause .random trivial)) ?_ ?_
    · intro draw after held
      exact held
    · intro error after calm
      exact calm

variable {α : Type}

/-- What an attempt must establish for `retry_async` to establish `post`. -/
def AttemptPost (holds : State → Prop)
    (post : Except PyException (Option α) → State → Prop) :
    Except PyException α → State → Prop
  | .ok value, state => post (.ok (some value)) state
  | .error error, state => holds state ∧ post (.error error) state

variable {fn : App α} {retryOn : ExceptionClass → Bool} {onRetry : OnRetry}
  {post : Except PyException (Option α) → State → Prop}

theorem wp_retryFrom (stable : discipline.Stable task holds)
    (pause : MayPause discipline task holds)
    (callback : ∀ attempt exc delay state, holds state →
      discipline.wp task (onRetry attempt exc delay) (Calm holds) state)
    (body : ∀ state, holds state →
      discipline.wp task fn (AttemptPost holds post) state)
    (foreign : ∀ error state, holds state → error.cls.isOwn = false →
      post (.error error) state)
    {attempts : Int} (baseDelay maxDelay : ℚ) {attempt remaining : Nat}
    (left : 1 ≤ remaining) (enough : attempts < attempt + remaining)
    {state : State} (current : holds state) :
    discipline.wp task
      (retryFrom fn attempts baseDelay maxDelay retryOn onRetry attempt
        remaining) post state := by
  induction remaining generalizing attempt state with
  | zero => omega
  | succ remaining inductionHypothesis =>
      unfold retryFrom
      refine Discipline.wp_bind.mpr (Discipline.wp_attempt.mpr
        (Discipline.wp_mono ?_ (body state current)))
      intro outcome reached ended
      cases outcome with
      | ok value => exact ended
      | error exc =>
          obtain ⟨held, posted⟩ := ended
          simp only [Discipline.andThen]
          split
          case isTrue unlisted => exact posted
          case isFalse listed =>
            split
            case isTrue last => exact posted
            case isFalse more =>
              -- the last round has raised, so another one is left
              have leftAfter : 1 ≤ remaining := by omega
              have enoughAfter : attempts < (attempt + 1 : Nat) + remaining := by
                push_cast at enough ⊢
                omega
              refine Discipline.wp_seq
                (wp_computeDelay stable pause attempt baseDelay maxDelay held)
                ?_ ?_
              · intro delay afterDelay heldDelay
                refine Discipline.wp_seq
                  (callback attempt exc delay afterDelay heldDelay) ?_ ?_
                · intro _ afterCallback heldCallback
                  refine Discipline.wp_seq
                    (wp_ask_calm stable heldCallback
                      (pause (.sleep delay) trivial)) ?_ ?_
                  · intro _ afterSleep heldSleep
                    exact inductionHypothesis leftAfter enoughAfter heldSleep
                  · intro error afterSleep calm
                    exact foreign error afterSleep calm.1 calm.2
                · intro error afterCallback calm
                  exact foreign error afterCallback calm.1 calm.2
              · intro error afterDelay calm
                exact foreign error afterDelay calm.1 calm.2

/-- `retry_async` establishes `post` when every attempt does. -/
theorem wp_retryAsync (stable : discipline.Stable task holds)
    (pause : MayPause discipline task holds)
    (callback : ∀ attempt exc delay state, holds state →
      discipline.wp task (onRetry attempt exc delay) (Calm holds) state)
    (body : ∀ state, holds state →
      discipline.wp task fn (AttemptPost holds post) state)
    (foreign : ∀ error state, holds state → error.cls.isOwn = false →
      post (.error error) state)
    (attempts : Int) (baseDelay maxDelay : ℚ)
    {state : State} (current : holds state) :
    discipline.wp task
      (retryAsync fn attempts baseDelay maxDelay retryOn onRetry) post
      state := by
  unfold retryAsync
  split
  case isTrue few => exact foreign _ state current rfl
  case isFalse enough =>
    exact wp_retryFrom stable pause callback body foreign baseDelay maxDelay
      (by omega) (by omega) current

end Rules

/-! ## The commands of the retry loop -/

section Uses

variable {allowed : Command → Prop} {α : Type}

theorem uses_computeDelay (mayDraw : allowed .random) (attempt : Nat)
    (baseDelay maxDelay : ℚ) :
    (computeDelay attempt baseDelay maxDelay).Uses allowed := by
  unfold computeDelay
  split
  · exact trivial
  · exact Prog.Uses.bind (Prog.Uses.perform mayDraw) fun _ => trivial

theorem uses_retryAsync {fn : App α} {retryOn : ExceptionClass → Bool}
    {onRetry : OnRetry} (mayDraw : allowed .random)
    (maySleep : ∀ delay, allowed (.sleep delay)) (inside : fn.Uses allowed)
    (callback : ∀ attempt exc delay, (onRetry attempt exc delay).Uses allowed)
    (attempts : Int) (baseDelay maxDelay : ℚ) :
    (retryAsync fn attempts baseDelay maxDelay retryOn onRetry).Uses
      allowed := by
  have loop : ∀ remaining attempt : Nat,
      (retryFrom fn attempts baseDelay maxDelay retryOn onRetry attempt
        remaining).Uses allowed := by
    intro remaining
    induction remaining with
    | zero => exact fun _ => trivial
    | succ remaining inductionHypothesis =>
        intro attempt
        refine Prog.Uses.bind inside.attempt ?_
        intro outcome
        cases outcome with
        | ok value => exact trivial
        | error exc =>
            simp only
            split
            · exact trivial
            · split
              · exact trivial
              · refine Prog.Uses.bind
                  (uses_computeDelay mayDraw attempt baseDelay maxDelay) ?_
                intro delay
                refine Prog.Uses.bind (callback attempt exc delay) ?_
                intro _
                refine Prog.Uses.bind (Prog.Uses.perform (maySleep delay)) ?_
                intro _
                exact inductionHypothesis (attempt + 1)
  unfold retryAsync
  split
  · exact trivial
  · exact loop attempts.toNat 1

end Uses

end TxnEvents
