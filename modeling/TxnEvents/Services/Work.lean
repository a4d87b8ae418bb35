import TxnEvents.Services.Lookups
import TxnEvents.Services.Processor
import TxnEvents.System.Rules

/-!
# The commands of processing

Processing an event asks the cache, the rate service, the database and the
clocks, and counts its retries.  It touches neither Redis nor the other
counters.
-/

namespace TxnEvents

open Effects App

def Command.Works : Command → Prop
  | .cacheGet _ => True
  | .cacheSet _ _ _ => True
  | .httpGet _ => True
  | .execute _ => True
  | .commit => True
  | .monotonic => True
  | .utcNow => True
  | .random => True
  | .sleep _ => True
  | .inc (.retries _) => True
  | .observe (.insertReturned _ _) => True
  | _ => False

theorem works_getRate (world : World) (currency : String) :
    (getRate world currency).Uses Command.Works := by
  apply (looksUp_getRate world currency).mono
  intro command looksUp
  cases command <;> first | exact trivial | exact looksUp.elim

theorem uses_reraiseClassified {α : Type} {allowed : Command → Prop}
    (error : PyException) :
    (reraiseClassified error : App α).Uses allowed := by
  unfold reraiseClassified
  split
  · exact trivial
  · exact trivial

theorem uses_insertIgnoreDuplicate {allowed : Command → Prop}
    {row : ProcessedTransaction} (mayExecute : allowed (.execute row))
    (mayCommit : allowed .commit)
    (mayNote : ∀ inserted, allowed (.observe (.insertReturned row.id inserted))) :
    (insertIgnoreDuplicate row).Uses allowed := by
  apply Prog.Uses.bind
  · apply Prog.Uses.tryExcept
    · apply Prog.Uses.bind (Prog.Uses.perform mayExecute)
      intro inserted
      exact Prog.Uses.bind (Prog.Uses.perform mayCommit) fun _ => trivial
    · exact uses_reraiseClassified
  · intro inserted
    exact Prog.Uses.bind (Prog.Uses.perform (mayNote inserted)) fun _ => trivial

/-- An operation that works does so when it is tried again. -/
theorem works_retryAsync {α : Type} {fn : App α} {attempts : Int}
    {baseDelay maxDelay : ℚ} (operation : RetriedOperation)
    (works : fn.Uses Command.Works) :
    (retryAsync fn attempts baseDelay maxDelay ExceptionClass.isTransient
      (onRetry operation)).Uses Command.Works :=
  uses_retryAsync trivial (fun _ => trivial) works
    (fun _ _ _ => Prog.Uses.perform trivial) _ _ _

theorem works_process (world : World) (event : TransactionEvent) :
    (process world event).Uses Command.Works := by
  apply Prog.Uses.bind
  · exact works_retryAsync .rateLookup (works_getRate world event.currency)
  · intro rate?
    apply Prog.Uses.bind (Prog.Uses.ofExcept _)
    intro amounts
    apply Prog.Uses.bind
    · exact Prog.Uses.bind (Prog.Uses.perform trivial) fun _ => trivial
    · intro processedAt
      apply Prog.Uses.bind
      · exact works_retryAsync .dbInsert
          (uses_insertIgnoreDuplicate trivial trivial fun _ => trivial)
      · intro inserted
        split
        · exact trivial
        · exact trivial

theorem Command.Works.not_isRedis {command : Command}
    (works : command.Works) : command.isRedis = false := by
  cases command <;> first | rfl | exact works.elim

end TxnEvents
