import TxnEvents.Effects.Ends
import TxnEvents.Services.Processor

/-!
# How processing can fail

Processing an event ends in an outage, in the error for an unknown currency,
or in an exception that is not the program's own.  Which commands raise what
does not matter for it.
-/

namespace TxnEvents

open Effects Arith Python App

/-- Only libraries raise at a command. -/
def ForeignErrors (command : Command)
    (reply : Except PyException command.Reply) : Prop :=
  ∀ error, reply = .error error → error.cls.isOwn = false

/-- The errors of a program, when commands raise nothing of the program's
own. -/
abbrev FailsWith {α : Type} (body : App α) (possible : PyException → Prop) :
    Prop :=
  @Prog.Ends appSig α ForeignErrors body fun outcome =>
    ∀ error, outcome = .error error → possible error

section Rules

variable {α β : Type} {possible wider : PyException → Prop}

theorem failsWith_ret (value : α) :
    FailsWith (.ret value : App α) possible := by
  intro error same
  cases same

theorem failsWith_raise {error : PyException} (may : possible error) :
    FailsWith (.raise error : App α) possible := by
  intro raised same
  cases same
  exact may

theorem failsWith_ofExcept {outcome : Except PyException α}
    (holds : ∀ error, outcome = .error error → possible error) :
    FailsWith (Prog.ofExcept outcome) possible :=
  Prog.Ends.ofExcept holds

theorem failsWith_perform {command : Command}
    (foreign : ∀ error : PyException, error.cls.isOwn = false →
      possible error) :
    FailsWith (@Prog.perform appSig command) possible :=
  Prog.Ends.perform fun _ answered error same =>
    foreign error (answered error same)

theorem FailsWith.bind {body : App α} {next : α → App β}
    (first : FailsWith body possible)
    (rest : ∀ value, FailsWith (next value) possible) :
    FailsWith (body.bind next) possible := by
  refine Prog.Ends.bind first (fun value _ => rest value) ?_
  intro error holds raised same
  cases same
  exact holds error rfl

theorem FailsWith.tryExcept {body : App α} {handler : PyException → App α}
    (first : FailsWith body possible)
    (handled : ∀ error, possible error → FailsWith (handler error) wider) :
    FailsWith (body.tryExcept handler) wider := by
  refine Prog.Ends.tryExcept first ?_ ?_
  · intro value _ error same
    cases same
  · intro error holds
    exact handled error (holds error rfl)

theorem FailsWith.attempt {body : App α} (first : FailsWith body possible) :
    @Prog.Ends appSig (Except PyException α) ForeignErrors body.attempt
      fun outcome => ∃ ended, outcome = .ok ended ∧
        ∀ error, ended = .error error → possible error :=
  Prog.Ends.attempt first fun ended holds => ⟨ended, rfl, holds⟩

/-- What is tried again fails as one attempt does, or for another reason that
is not the program's. -/
theorem failsWith_retryAsync {fn : App α} {retryOn : ExceptionClass → Bool}
    {onRetry : OnRetry}
    (foreign : ∀ error : PyException, error.cls.isOwn = false →
      possible error)
    (inside : FailsWith fn possible)
    (callback : ∀ attempt exc delay,
      FailsWith (onRetry attempt exc delay) possible)
    (attempts : Int) (baseDelay maxDelay : ℚ) :
    FailsWith (retryAsync fn attempts baseDelay maxDelay retryOn onRetry)
      possible := by
  have delays : ∀ attempt,
      FailsWith (computeDelay attempt baseDelay maxDelay) possible := by
    intro attempt
    unfold computeDelay
    split
    · exact failsWith_raise (foreign _ rfl)
    · exact FailsWith.bind (failsWith_perform foreign) fun draw =>
        failsWith_ret _
  have loop : ∀ remaining attempt : Nat,
      FailsWith (retryFrom fn attempts baseDelay maxDelay retryOn onRetry
        attempt remaining) possible := by
    intro remaining
    induction remaining with
    | zero => exact fun _ => failsWith_ret none
    | succ remaining inductionHypothesis =>
        intro attempt
        refine Prog.Ends.bind inside.attempt ?_ ?_
        · intro outcome reached
          rcases reached with ⟨ended, same, holds⟩
          cases same
          cases outcome with
          | ok value => exact failsWith_ret (some value)
          | error exc =>
              simp only
              split
              · exact failsWith_raise (holds exc rfl)
              · split
                · exact failsWith_raise (holds exc rfl)
                · refine FailsWith.bind (delays attempt) fun delay => ?_
                  refine FailsWith.bind (callback attempt exc delay) ?_
                  intro _
                  refine FailsWith.bind (failsWith_perform foreign) ?_
                  intro _
                  exact inductionHypothesis (attempt + 1)
        · intro error reached
          rcases reached with ⟨ended, same, _⟩
          cases same
  unfold retryAsync
  split
  · exact failsWith_raise (foreign _ rfl)
  · exact loop attempts.toNat 1

end Rules

/-! ## Processing -/

/-- The errors in which processing an event can end. -/
inductive ProcessError (world : World) (currency : String)
    (error : PyException) : Prop
  | outage (transient : error.cls.isTransient = true)
  | unknown (same : error = unknownCurrency world currency)
  | foreign (unexpected : error.cls.isOwn = false)

section Process

variable {world : World} {currency : String}

theorem processError_rateOf {response : HttpResponse} {error : PyException}
    (failed : rateOf world currency response = .error error) :
    ProcessError world currency error := by
  unfold rateOf at failed
  split at failed
  · cases failed
    exact .unknown rfl
  · split at failed
    · cases failed
      exact .outage rfl
    · split at failed
      · cases failed
        exact .foreign rfl
      · split at failed
        case h_1 raised given =>
          cases failed
          exact .foreign raised.foreign
        case h_2 => cases failed

theorem failsWith_cached :
    FailsWith (cached currency) (ProcessError world currency) := by
  refine FailsWith.bind (failsWith_perform fun _ => .foreign) fun entry => ?_
  cases entry with
  | none => exact failsWith_ret none
  | some entry =>
      refine FailsWith.bind (failsWith_perform fun _ => .foreign) fun now => ?_
      split
      · exact failsWith_ret none
      · exact failsWith_ret _

theorem failsWith_getRate :
    FailsWith (getRate world currency) (ProcessError world currency) := by
  refine FailsWith.bind failsWith_cached fun hit => ?_
  cases hit with
  | some rate => exact failsWith_ret rate
  | none =>
      have asked : FailsWith
          ((httpGet currency).tryExcept fun exc =>
            if exc.cls = .requestError then
              .raise (rateServiceUnavailable
                ("rate-service unreachable: " ++ exc.text))
            else .raise exc)
          (ProcessError world currency) := by
        refine FailsWith.tryExcept (failsWith_perform fun _ => id) ?_
        intro error foreign
        split
        · exact failsWith_raise (.outage rfl)
        · exact failsWith_raise (.foreign foreign)
      refine FailsWith.bind asked fun response => ?_
      refine FailsWith.bind
        (failsWith_ofExcept fun _ => processError_rateOf) fun rate => ?_
      refine FailsWith.bind ?_ fun _ => failsWith_ret rate
      exact FailsWith.bind (failsWith_perform fun _ => .foreign) fun now =>
        failsWith_perform fun _ => .foreign

theorem failsWith_insertIgnoreDuplicate (row : ProcessedTransaction) :
    FailsWith (insertIgnoreDuplicate row) (ProcessError world currency) := by
  have tried : FailsWith
      ((App.execute row).bind fun inserted =>
        App.commit.bind fun _ => (.ret inserted : App Bool))
      fun error => error.cls.isOwn = false := by
    refine FailsWith.bind (failsWith_perform fun _ => id) fun inserted => ?_
    exact FailsWith.bind (failsWith_perform fun _ => id) fun _ =>
      failsWith_ret inserted
  refine FailsWith.bind (FailsWith.tryExcept tried ?_) ?_
  · intro error foreign
    unfold reraiseClassified
    split
    · refine failsWith_raise ?_
      cases classified : classifyDbError error with
      | none => exact .foreign foreign
      | some unavailable =>
          refine .outage ?_
          rw [classifyDbError] at classified
          split at classified
          · cases classified
            rfl
          · split at classified
            · cases classified
            · split at classified
              · cases classified
                rfl
              · cases classified
    · exact failsWith_raise (.foreign foreign)
  · intro inserted
    exact FailsWith.bind (failsWith_perform fun _ => .foreign) fun _ =>
      failsWith_ret inserted

theorem foreign_of_amountUsdOf {amount : Decimal} {rate? : Option Decimal}
    {error : PyException} (failed : amountUsdOf amount rate? = .error error) :
    error.cls.isOwn = false := by
  unfold amountUsdOf at failed
  split at failed
  · cases failed
    rfl
  · split at failed
    case h_1 => cases failed
    case h_2 signal signalled =>
      cases failed
      cases signal with
      | invalidOperation => rfl
      | overflow => rfl

theorem failsWith_process (event : TransactionEvent) :
    FailsWith (process world event) (ProcessError world event.currency) := by
  have counted : ∀ operation attempt exc delay,
      FailsWith (onRetry operation attempt exc delay)
        (ProcessError world event.currency) :=
    fun _ _ _ _ => failsWith_perform fun _ => .foreign
  refine FailsWith.bind (failsWith_retryAsync (fun _ => .foreign)
    failsWith_getRate (counted _) _ _ _) fun rate? => ?_
  refine FailsWith.bind (failsWith_ofExcept fun _ failed =>
    .foreign (foreign_of_amountUsdOf failed)) fun amounts => ?_
  refine FailsWith.bind ?_ fun processedAt => ?_
  · exact FailsWith.bind (failsWith_perform fun _ => .foreign) fun _ =>
      failsWith_ret _
  · refine FailsWith.bind (failsWith_retryAsync (fun _ => .foreign)
      (failsWith_insertIgnoreDuplicate _) (counted _) _ _ _) fun inserted => ?_
    split
    · exact failsWith_ret _
    · exact failsWith_ret _

end Process

end TxnEvents
