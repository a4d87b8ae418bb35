import TxnEvents.System.Commands

/-!
# Exponential backoff with full jitter
-/

namespace TxnEvents

open Effects Python App

def computeDelay (attempt : Nat) (baseDelay maxDelay : ℚ) : App PyFloat :=
  match PyFloat.scale baseDelay (2 ^ (attempt - 1)) with
  | none =>
      .raise { cls := .overflowError, text := "int too large to convert to float" }
  | some product =>
      random.bind fun draw =>
        .ret ((PyFloat.minWith maxDelay product).uniform draw)

/-- Called with the attempt number, the error and the delay, before a sleep. -/
abbrev OnRetry : Type := Nat → PyException → PyFloat → App Unit

section Retry

variable {α : Type}

/-- The iterations from `attempt` on, `remaining` of them.  Falling through
the loop returns `None`. -/
def retryFrom (fn : App α) (attempts : Int) (baseDelay maxDelay : ℚ)
    (retryOn : ExceptionClass → Bool) (onRetry : OnRetry) :
    Nat → Nat → App (Option α)
  | _, 0 => .ret none
  | attempt, remaining + 1 =>
      fn.attempt.bind fun outcome =>
        match outcome with
        | .ok value => .ret (some value)
        | .error exc =>
            if retryOn exc.cls = false then .raise exc
            else if attempts ≤ attempt then .raise exc
            else
              (computeDelay attempt baseDelay maxDelay).bind fun delay =>
                (onRetry attempt exc delay).bind fun _ =>
                  (sleep delay).bind fun _ =>
                    retryFrom fn attempts baseDelay maxDelay retryOn onRetry
                      (attempt + 1) remaining

def retryAsync (fn : App α) (attempts : Int) (baseDelay maxDelay : ℚ)
    (retryOn : ExceptionClass → Bool) (onRetry : OnRetry) : App (Option α) :=
  if attempts < 1 then
    .raise { cls := .valueError, text := "retry_async requires attempts >= 1" }
  else
    retryFrom fn attempts baseDelay maxDelay retryOn onRetry 1 attempts.toNat

end Retry

end TxnEvents
