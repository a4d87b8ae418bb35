import TxnEvents.Core.Retry
import TxnEvents.Effects.Calls
import TxnEvents.Effects.Traces

/-!
# Bounded retry, call by call

`retry_async` as a program whose commands are its calls: of `fn`, of the
backoff computation, of `on_retry` and of `asyncio.sleep`.  What each call does
is left to whoever answers it, so `fn` may come to any sequence of outcomes.
-/

namespace TxnEvents

open Effects Python App

/-- What `retry_async` calls. -/
inductive RetryCall where
  | fn
  | computeDelay (attempt : Nat)
  | onRetry (attempt : Nat) (exc : PyException) (delay : PyFloat)
  | sleep (delay : PyFloat)
  deriving DecidableEq

abbrev RetryCall.Result (α : Type) : RetryCall → Type
  | fn => α
  | computeDelay _ => PyFloat
  | onRetry _ _ _ => Unit
  | sleep _ => Unit

abbrev retryInterface (α : Type) : Interface where
  Name := RetryCall
  Result := RetryCall.Result α

abbrev retrySig (α : Type) : Signature :=
  (retryInterface α).calls appSig

/-- The calls of one `retry_async` with what they came to. -/
abbrev RetryTrace (α : Type) : Type :=
  Trace (retrySig α)

section Retrying

variable {α : Type}

/-- One call, as a program of its own. -/
abbrev calling (α : Type) (name : RetryCall) :
    Prog (retrySig α) (RetryCall.Result α name) :=
  @Prog.perform (retrySig α) name

/-- What is done after a retriable error, before the next attempt. -/
def pausing (attempt : Nat) (exc : PyException)
    (next : Prog (retrySig α) (Option α)) :
    Prog (retrySig α) (Option α) :=
  (calling α (.computeDelay attempt)).bind fun delay =>
    (calling α (.onRetry attempt exc delay)).bind fun _ =>
      (calling α (.sleep delay)).bind fun _ => next

/-- `retryFrom` with its calls as commands. -/
def retryingFrom (attempts : Int) (retryOn : ExceptionClass → Bool) :
    Nat → Nat → Prog (retrySig α) (Option α)
  | _, 0 => .ret none
  | attempt, remaining + 1 =>
      (calling α .fn).attempt.bind fun outcome =>
        match outcome with
        | .ok value => .ret (some value)
        | .error exc =>
            if retryOn exc.cls = false then .raise exc
            else if attempts ≤ attempt then .raise exc
            else
              pausing attempt exc
                (retryingFrom attempts retryOn (attempt + 1) remaining)

def noAttempts : PyException where
  cls := .valueError
  text := "retry_async requires attempts >= 1"

/-- `retryAsync` with its calls as commands. -/
def retrying (attempts : Int) (retryOn : ExceptionClass → Bool) :
    Prog (retrySig α) (Option α) :=
  if attempts < 1 then .raise noAttempts
  else retryingFrom attempts retryOn 1 attempts.toNat

/-- The programs behind the calls. -/
def retryCallees
    (fn : App α)
    (baseDelay maxDelay : ℚ)
    (onRetry : OnRetry) :
    Callees (retryInterface α) appSig
  | .fn => fn
  | .computeDelay attempt => TxnEvents.computeDelay attempt baseDelay maxDelay
  | .onRetry attempt exc delay => onRetry attempt exc delay
  | .sleep delay => App.sleep delay

theorem link_calling
    (callees : Callees (retryInterface α) appSig)
    (name : RetryCall) :
    (calling α name).link callees = callees name :=
  Prog.link_perform callees name

theorem link_pausing
    (callees : Callees (retryInterface α) appSig)
    (attempt : Nat)
    (exc : PyException)
    (next : Prog (retrySig α) (Option α)) :
    (pausing attempt exc next).link callees =
      (callees (.computeDelay attempt)).bind fun delay =>
        (callees (.onRetry attempt exc delay)).bind fun _ =>
          (callees (.sleep delay)).bind fun _ => next.link callees := by
  rw [pausing, Prog.link_bind, link_calling callees (.computeDelay attempt)]
  congr
  funext delay
  rw [Prog.link_bind, link_calling callees (.onRetry attempt exc delay)]
  congr
  funext reported
  rw [Prog.link_bind, link_calling callees (.sleep delay)]

theorem retryFrom_eq_link
    (fn : App α)
    (attempts : Int)
    (baseDelay maxDelay : ℚ)
    (retryOn : ExceptionClass → Bool)
    (onRetry : OnRetry)
    (attempt remaining : Nat) :
    retryFrom fn attempts baseDelay maxDelay retryOn onRetry attempt
        remaining =
      (retryingFrom attempts retryOn attempt remaining).link
        (retryCallees fn baseDelay maxDelay onRetry) := by
  induction remaining generalizing attempt with
  | zero => rfl
  | succ remaining inductionHypothesis =>
      rw [retryFrom, retryingFrom, Prog.link_bind, Prog.link_attempt,
        Prog.link_perform]
      congr
      funext outcome
      cases outcome with
      | ok value => rfl
      | error exc =>
          dsimp only
          by_cases outside : retryOn exc.cls = false
          · rw [if_pos outside, if_pos outside, Prog.link_raise]
          · rw [if_neg outside, if_neg outside]
            by_cases final : attempts ≤ attempt
            · rw [if_pos final, if_pos final, Prog.link_raise]
            · rw [if_neg final, if_neg final, inductionHypothesis (attempt + 1),
                link_pausing]
              rfl

/-- `retry_async` is its calls, carried out. -/
theorem retryAsync_eq_link
    (fn : App α)
    (attempts : Int)
    (baseDelay maxDelay : ℚ)
    (retryOn : ExceptionClass → Bool)
    (onRetry : OnRetry) :
    retryAsync fn attempts baseDelay maxDelay retryOn onRetry =
      (retrying attempts retryOn).link
        (retryCallees fn baseDelay maxDelay onRetry) := by
  by_cases none : attempts < 1
  · rw [retryAsync, retrying, if_pos none, if_pos none, Prog.link_raise]
    rfl
  · rw [retryAsync, retrying, if_neg none, if_neg none, retryFrom_eq_link]

end Retrying

section Attempts

variable {α : Type} {retryOn : ExceptionClass → Bool} {attempts : Int}

/-- The outcome is an error in `retry_on`. -/
def Retriable
    (retryOn : ExceptionClass → Bool)
    (outcome : Except PyException α) : Prop :=
  ∃ exc, outcome = .error exc ∧ retryOn exc.cls = true

theorem not_retriable_ok (value : α) :
    ¬ Retriable retryOn (.ok value : Except PyException α) := by
  rintro ⟨exc, impossible, _⟩
  cases impossible

/-- With an attempt allowed the loop is entered. -/
theorem plays_retrying
    {calls : RetryTrace α}
    {ended : Except PyException (Option α)}
    (positive : 1 ≤ attempts)
    (played : (retrying attempts retryOn).Plays calls ended) :
    ∃ remaining : Nat, attempts = 1 + remaining ∧
      (retryingFrom attempts retryOn 1 (remaining + 1)).Plays calls ended := by
  rw [retrying, if_neg (by omega)] at played
  obtain ⟨remaining, count⟩ : ∃ remaining, attempts.toNat = remaining + 1 :=
    ⟨attempts.toNat - 1, by omega⟩
  rw [count] at played
  exact ⟨remaining, by omega, played⟩

/-- An attempt ends the loop unless its error is retriable and an attempt is
left. -/
theorem plays_retryingFrom_succ
    {attempt remaining : Nat}
    {calls : RetryTrace α}
    {ended : Except PyException (Option α)}
    (played :
      (retryingFrom attempts retryOn attempt (remaining + 1)).Plays calls
        ended) :
    ∃ (outcome : Except PyException α) (rest : RetryTrace α),
      calls = ⟨.fn, outcome⟩ :: rest ∧
        (rest = [] ∧ ended = outcome.map some ∧
            (Retriable retryOn outcome → attempts ≤ attempt) ∨
          ∃ exc, outcome = .error exc ∧ retryOn exc.cls = true ∧
            attempt < attempts ∧
              (pausing attempt exc
                (retryingFrom attempts retryOn (attempt + 1)
                  remaining)).Plays rest ended) := by
  rw [retryingFrom] at played
  obtain ⟨outcome, rest, same, continues⟩ := Prog.plays_call_iff.mp played
  refine ⟨outcome, rest, same, ?_⟩
  cases outcome with
  | ok value =>
      have returned := Prog.plays_ret_iff.mp continues
      exact Or.inl ⟨returned.1, returned.2,
        fun again => absurd again (not_retriable_ok value)⟩
  | error exc =>
      have handled :
          (if retryOn exc.cls = false then .raise exc
            else if attempts ≤ attempt then .raise exc
            else
              pausing attempt exc
                (retryingFrom attempts retryOn (attempt + 1)
                  remaining)).Plays rest ended := continues
      by_cases outside : retryOn exc.cls = false
      · rw [if_pos outside] at handled
        have raised := Prog.plays_raise_iff.mp handled
        refine Or.inl ⟨raised.1, raised.2, ?_⟩
        rintro ⟨other, same', inside⟩
        cases same'
        rw [outside] at inside
        cases inside
      · rw [if_neg outside] at handled
        by_cases final : attempts ≤ attempt
        · rw [if_pos final] at handled
          have raised := Prog.plays_raise_iff.mp handled
          exact Or.inl ⟨raised.1, raised.2, fun _ => final⟩
        · rw [if_neg final] at handled
          have inside : retryOn exc.cls = true := by
            simpa using outside
          exact Or.inr ⟨exc, rfl, inside, by omega, handled⟩

/-- The calls of `fn` are answered with the outcomes from `attempt` on, and
the other calls as `others` allows. -/
def ScriptedFrom
    (outcomes : Nat → Except PyException α)
    (others : Answer (retrySig α) → Prop) :
    Nat → RetryTrace α → Prop
  | _, [] => True
  | attempt, ⟨.fn, outcome⟩ :: rest =>
      outcome = outcomes attempt ∧
        ScriptedFrom outcomes others (attempt + 1) rest
  | attempt, answer :: rest =>
      others answer ∧ ScriptedFrom outcomes others attempt rest

/-- A call other than one of `fn`, and what follows it. -/
theorem plays_calling_bind
    {outcomes : Nat → Except PyException α}
    {others : Answer (retrySig α) → Prop}
    {turn : Nat}
    {name : RetryCall}
    {next : RetryCall.Result α name → Prog (retrySig α) (Option α)}
    {calls : RetryTrace α}
    {ended : Except PyException (Option α)}
    (other : name ≠ .fn)
    (played : ((calling α name).bind next).Plays calls ended)
    (scripted : ScriptedFrom outcomes others turn calls) :
    ∃ (reply : Except PyException (RetryCall.Result α name))
        (rest : RetryTrace α),
      calls = ⟨name, reply⟩ :: rest ∧
        others ⟨name, reply⟩ ∧ ScriptedFrom outcomes others turn rest ∧
          ((Prog.ofExcept reply).bind next).Plays rest ended := by
  obtain ⟨reply, rest, rfl, continues⟩ := Prog.plays_call_iff.mp played
  cases name with
  | fn => exact absurd rfl other
  | computeDelay attempt =>
      exact ⟨reply, rest, rfl, scripted.1, scripted.2, continues⟩
  | onRetry attempt exc delay =>
      exact ⟨reply, rest, rfl, scripted.1, scripted.2, continues⟩
  | sleep delay =>
      exact ⟨reply, rest, rfl, scripted.1, scripted.2, continues⟩

/-- The call returned. -/
def Returned (answer : Answer (retrySig α)) : Prop :=
  ∃ value, answer.reply = .ok value

/-- The attempts from `attempt` to `final`: each but the last fails, is
reported once with the delay of its backoff, and that delay is slept. -/
inductive Rounds (outcomes : Nat → Except PyException α) (final : Nat) :
    Nat → RetryTrace α → Prop where
  | last : Rounds outcomes final final [⟨.fn, outcomes final⟩]
  | again {attempt : Nat} {exc : PyException} {delay : PyFloat}
      {calls : RetryTrace α} :
      outcomes attempt = .error exc →
        Rounds outcomes final (attempt + 1) calls →
          Rounds outcomes final attempt
            (⟨.fn, .error exc⟩ :: ⟨.computeDelay attempt, .ok delay⟩ ::
              ⟨.onRetry attempt exc delay, .ok ()⟩ ::
                ⟨.sleep delay, .ok ()⟩ :: calls)

/-- How often a call was made. -/
def timesCalled (name : RetryCall) (calls : RetryTrace α) : Nat :=
  (calls.map Answer.command).count name

@[simp]
theorem timesCalled_cons_self
    {name : RetryCall}
    {reply : Except PyException (RetryCall.Result α name)}
    {calls : RetryTrace α} :
    timesCalled name (⟨name, reply⟩ :: calls) = timesCalled name calls + 1 := by
  simp [timesCalled]

@[simp]
theorem timesCalled_cons_of_ne
    {name other : RetryCall}
    {reply : Except PyException (RetryCall.Result α other)}
    {calls : RetryTrace α}
    (different : other ≠ name) :
    timesCalled name (⟨other, reply⟩ :: calls) = timesCalled name calls := by
  simp [timesCalled, different]

/-- A pause calls `fn` no further time. -/
theorem timesCalled_fn_pause
    {attempt : Nat}
    {outcome : Except PyException α}
    {exc : PyException}
    {delay : PyFloat}
    {calls : RetryTrace α} :
    timesCalled .fn
        (⟨.fn, outcome⟩ :: ⟨.computeDelay attempt, .ok delay⟩ ::
          ⟨.onRetry attempt exc delay, .ok ()⟩ ::
            ⟨.sleep delay, .ok ()⟩ :: calls) =
      timesCalled .fn calls + 1 := by
  rw [timesCalled_cons_self, timesCalled_cons_of_ne (by simp),
    timesCalled_cons_of_ne (by simp), timesCalled_cons_of_ne (by simp)]

theorem Rounds.timesCalled_fn
    {outcomes : Nat → Except PyException α}
    {attempt final : Nat}
    {calls : RetryTrace α}
    (rounds : Rounds outcomes final attempt calls) :
    attempt + timesCalled .fn calls = final + 1 := by
  induction rounds with
  | last => rfl
  | again _ _ inductionHypothesis =>
      rw [← inductionHypothesis, timesCalled_fn_pause]
      omega

theorem plays_calling_returned
    {outcomes : Nat → Except PyException α}
    {turn : Nat}
    {name : RetryCall}
    {next : RetryCall.Result α name → Prog (retrySig α) (Option α)}
    {calls : RetryTrace α}
    {ended : Except PyException (Option α)}
    (other : name ≠ .fn)
    (played : ((calling α name).bind next).Plays calls ended)
    (scripted : ScriptedFrom outcomes Returned turn calls) :
    ∃ (value : RetryCall.Result α name) (rest : RetryTrace α),
      calls = ⟨name, .ok value⟩ :: rest ∧
        (next value).Plays rest ended ∧
          ScriptedFrom outcomes Returned turn rest := by
  obtain ⟨reply, rest, same, returned, restScripted, continues⟩ :=
    plays_calling_bind other played scripted
  cases reply with
  | ok value => exact ⟨value, rest, same, continues, restScripted⟩
  | error error =>
      rcases returned with ⟨value, impossible⟩
      cases impossible

/-- A pause whose calls return. -/
theorem plays_pausing
    {outcomes : Nat → Except PyException α}
    {attempt turn : Nat}
    {exc : PyException}
    {next : Prog (retrySig α) (Option α)}
    {calls : RetryTrace α}
    {ended : Except PyException (Option α)}
    (played : (pausing attempt exc next).Plays calls ended)
    (scripted : ScriptedFrom outcomes Returned turn calls) :
    ∃ (delay : PyFloat) (rest : RetryTrace α),
      calls =
          ⟨.computeDelay attempt, .ok delay⟩ ::
            ⟨.onRetry attempt exc delay, .ok ()⟩ ::
              ⟨.sleep delay, .ok ()⟩ :: rest ∧
        next.Plays rest ended ∧ ScriptedFrom outcomes Returned turn rest := by
  have computing : RetryCall.computeDelay attempt ≠ .fn := by simp
  obtain ⟨delay, counting, rfl, reporting, countingScripted⟩ :=
    plays_calling_returned computing played scripted
  have telling : RetryCall.onRetry attempt exc delay ≠ .fn := by simp
  obtain ⟨_, sleeping, rfl, resting, sleepingScripted⟩ :=
    plays_calling_returned telling reporting countingScripted
  have waiting : RetryCall.sleep delay ≠ .fn := by simp
  obtain ⟨_, rest, rfl, continues, restScripted⟩ :=
    plays_calling_returned waiting resting sleepingScripted
  exact ⟨delay, rest, rfl, continues, restScripted⟩

/-- The loop from one attempt on, by induction on the attempts that remain. -/
theorem plays_retryingFrom
    {outcomes : Nat → Except PyException α}
    {attempt remaining : Nat}
    {calls : RetryTrace α}
    {ended : Except PyException (Option α)}
    (count : (attempt : Int) + remaining = attempts)
    (played :
      (retryingFrom attempts retryOn attempt (remaining + 1)).Plays calls
        ended)
    (scripted : ScriptedFrom outcomes Returned attempt calls) :
    ∃ final, Rounds outcomes final attempt calls ∧
      ended = (outcomes final).map some ∧
        (∀ earlier, attempt ≤ earlier → earlier < final →
          Retriable retryOn (outcomes earlier)) ∧
          attempt ≤ final ∧ (final : Int) ≤ attempts ∧
            (Retriable retryOn (outcomes final) → attempts ≤ final) := by
  induction remaining generalizing attempt calls with
  | zero =>
      rcases plays_retryingFrom_succ played with
        ⟨outcome, rest, rfl, ⟨rfl, same, lasting⟩ | ⟨_, _, _, earlier, _⟩⟩
      · obtain ⟨rfl, _⟩ := scripted
        exact ⟨attempt, Rounds.last, same, by omega, Nat.le_refl attempt,
          by omega, lasting⟩
      · omega
  | succ remaining inductionHypothesis =>
      rcases plays_retryingFrom_succ played with
        ⟨outcome, rest, rfl, ⟨rfl, same, lasting⟩ |
          ⟨exc, failed, inside, earlier, pausing⟩⟩
      · obtain ⟨rfl, _⟩ := scripted
        exact ⟨attempt, Rounds.last, same, by omega, Nat.le_refl attempt,
          by omega, lasting⟩
      · obtain ⟨scriptedOutcome, restScripted⟩ := scripted
        rw [failed] at scriptedOutcome
        subst failed
        obtain ⟨delay, later, rfl, continues, laterScripted⟩ :=
          plays_pausing pausing restScripted
        obtain ⟨final, rounds, same, retriable, reached, within, lasting⟩ :=
          inductionHypothesis (by omega) continues laterScripted
        refine ⟨final, Rounds.again scriptedOutcome.symm rounds, same, ?_,
          by omega, within, lasting⟩
        intro index started before
        by_cases first : index = attempt
        · rw [first, ← scriptedOutcome]
          exact ⟨exc, rfl, inside⟩
        · exact retriable index (by omega) before

/-- The first outcome that is a value or an error outside `retry_on`. -/
structure FirstLasting
    (retryOn : ExceptionClass → Bool)
    (outcomes : Nat → Except PyException α)
    (index : Nat) : Prop where
  positive : 1 ≤ index
  lasting : ¬ Retriable retryOn (outcomes index)
  earlier : ∀ before, 1 ≤ before → before < index →
    Retriable retryOn (outcomes before)

theorem exists_firstLasting
    {outcomes : Nat → Except PyException α}
    {index : Nat}
    (positive : 1 ≤ index)
    (lasting : ¬ Retriable retryOn (outcomes index)) :
    ∃ first, FirstLasting retryOn outcomes first ∧ first ≤ index := by
  induction index using Nat.strong_induction_on with
  | h index inductionHypothesis =>
      by_cases all : ∀ before, 1 ≤ before → before < index →
          Retriable retryOn (outcomes before)
      · exact ⟨index, ⟨positive, lasting, all⟩, Nat.le_refl index⟩
      · push Not at all
        rcases all with ⟨before, started, earlier, ends⟩
        rcases inductionHypothesis before earlier started ends with
          ⟨first, isFirst, within⟩
        exact ⟨first, isFirst, by omega⟩

/-- The backoff came to the given delay, and the other calls returned. -/
def ReturnedWith (delays : Nat → PyFloat) : Answer (retrySig α) → Prop
  | ⟨.fn, _⟩ => True
  | ⟨.computeDelay attempt, reply⟩ => reply = .ok (delays attempt)
  | ⟨.onRetry _ _ _, reply⟩ => reply = .ok ()
  | ⟨.sleep _, reply⟩ => reply = .ok ()

/-- Answers for the calls of one run: the outcomes in order, and `delayed` for
every backoff. -/
def scriptedAnswer
    (outcomes : Nat → Except PyException α)
    (delayed : Nat → Except PyException PyFloat)
    (before : RetryTrace α) :
    (name : RetryCall) → Except PyException (RetryCall.Result α name)
  | .fn => outcomes (timesCalled .fn before + 1)
  | .computeDelay attempt => delayed attempt
  | .onRetry _ _ _ => .ok ()
  | .sleep _ => .ok ()

theorem scriptedFrom_traceWith
    {others : Answer (retrySig α) → Prop}
    {outcomes : Nat → Except PyException α}
    {delayed : Nat → Except PyException PyFloat}
    (computed : ∀ attempt, others ⟨.computeDelay attempt, delayed attempt⟩)
    (reported : ∀ attempt exc delay,
      others ⟨.onRetry attempt exc delay, .ok ()⟩)
    (rested : ∀ delay, others ⟨.sleep delay, .ok ()⟩)
    (body : Prog (retrySig α) (Option α))
    (before : RetryTrace α) :
    ScriptedFrom outcomes others (timesCalled .fn before + 1)
      (body.traceWith (scriptedAnswer outcomes delayed) before) := by
  induction body generalizing before with
  | ret value => trivial
  | raise error => trivial
  | call name resume inductionHypothesis =>
      rw [Prog.traceWith]
      have later := inductionHypothesis
        (scriptedAnswer outcomes delayed before name)
        (⟨name, scriptedAnswer outcomes delayed before name⟩ :: before)
      cases name with
      | fn =>
          rw [timesCalled_cons_self] at later
          exact ⟨rfl, later⟩
      | computeDelay attempt =>
          rw [timesCalled_cons_of_ne (by simp)] at later
          exact ⟨computed attempt, later⟩
      | onRetry attempt exc delay =>
          rw [timesCalled_cons_of_ne (by simp)] at later
          exact ⟨reported attempt exc delay, later⟩
      | sleep delay =>
          rw [timesCalled_cons_of_ne (by simp)] at later
          exact ⟨rested delay, later⟩

/-- Every sequence of outcomes is met by a run. -/
theorem exists_scripted
    {others : Answer (retrySig α) → Prop}
    (delayed : Nat → Except PyException PyFloat)
    (computed : ∀ attempt, others ⟨.computeDelay attempt, delayed attempt⟩)
    (reported : ∀ attempt exc delay,
      others ⟨.onRetry attempt exc delay, .ok ()⟩)
    (rested : ∀ delay, others ⟨.sleep delay, .ok ()⟩)
    (outcomes : Nat → Except PyException α)
    (attempts : Int)
    (retryOn : ExceptionClass → Bool) :
    ∃ calls ended, (retrying attempts retryOn).Plays calls ended ∧
      ScriptedFrom outcomes others 1 calls :=
  ⟨_, _, Prog.plays_traceWith (scriptedAnswer outcomes delayed) _ [],
    scriptedFrom_traceWith computed reported rested _ []⟩

/-- How the calls of `retry_async` end: with the first lasting outcome, or
with the last error that the attempts allow. -/
structure RetriesExactly
    (retryOn : ExceptionClass → Bool)
    (outcomes : Nat → Except PyException α)
    (attempts : Nat)
    (calls : RetryTrace α)
    (ended : Except PyException (Option α)) : Prop where
  settles : ∀ first, FirstLasting retryOn outcomes first → first ≤ attempts →
    Rounds outcomes first 1 calls ∧ timesCalled .fn calls = first ∧
      ended = (outcomes first).map some
  exhausts : (∀ first, FirstLasting retryOn outcomes first →
      attempts < first) →
    Rounds outcomes attempts 1 calls ∧ timesCalled .fn calls = attempts ∧
      ∃ exc, outcomes attempts = .error exc ∧ ended = .error exc
  returnsNoNone : ended ≠ .ok none

theorem retriesExactly_of_rounds
    {outcomes : Nat → Except PyException α}
    {attempts final : Nat}
    {calls : RetryTrace α}
    {ended : Except PyException (Option α)}
    (rounds : Rounds outcomes final 1 calls)
    (same : ended = (outcomes final).map some)
    (retriable : ∀ earlier, 1 ≤ earlier → earlier < final →
      Retriable retryOn (outcomes earlier))
    (started : 1 ≤ final)
    (within : final ≤ attempts)
    (lasting : Retriable retryOn (outcomes final) → attempts ≤ final) :
    RetriesExactly retryOn outcomes attempts calls ended := by
  have count : timesCalled .fn calls = final := by
    have counted := rounds.timesCalled_fn
    omega
  constructor
  · intro first isFirst enough
    have notBefore : ¬ first < final :=
      fun before => isFirst.lasting (retriable first isFirst.positive before)
    have notAfter : ¬ final < first := by
      intro after
      have used := lasting (isFirst.earlier final started after)
      omega
    have reached : final = first := by omega
    rw [← reached]
    exact ⟨rounds, count, same⟩
  · intro none
    have again : Retriable retryOn (outcomes final) := by
      by_contra ends
      rcases exists_firstLasting started ends with ⟨first, isFirst, before⟩
      have beyond := none first isFirst
      omega
    have reached : final = attempts := by
      have used := lasting again
      omega
    rw [← reached]
    rcases again with ⟨exc, failed, _⟩
    rw [failed] at same
    exact ⟨rounds, count, exc, failed, same⟩
  · rw [same]
    cases outcomes final with
    | ok value => simp [Except.map]
    | error exc => simp [Except.map]

/-- `retry_async` is its calls carried out, and these are a bounded retry: an
attempt for every outcome up to the first lasting one or the last allowed, a
report and a sleep between two attempts, and nothing else. -/
theorem retry_is_exactly_bounded
    (fn : App α)
    (attempts : Int)
    (baseDelay maxDelay : ℚ)
    (retryOn : ExceptionClass → Bool)
    (onRetry : OnRetry) :
    retryAsync fn attempts baseDelay maxDelay retryOn onRetry =
        (retrying attempts retryOn).link
          (retryCallees fn baseDelay maxDelay onRetry) ∧
      (attempts < 1 → ∀ (calls : RetryTrace α) ended,
        (retrying attempts retryOn).Plays calls ended →
          calls = [] ∧ ended = .error noAttempts) ∧
      (1 ≤ attempts →
        ∀ (outcomes : Nat → Except PyException α) calls ended,
          (retrying attempts retryOn).Plays calls ended →
            ScriptedFrom outcomes Returned 1 calls →
              RetriesExactly retryOn outcomes attempts.toNat calls ended) ∧
      ∀ (outcomes : Nat → Except PyException α) (delays : Nat → PyFloat),
        ∃ calls ended, (retrying attempts retryOn).Plays calls ended ∧
          ScriptedFrom outcomes (ReturnedWith delays) 1 calls := by
  have refused : attempts < 1 → ∀ (calls : RetryTrace α) ended,
      (retrying attempts retryOn).Plays calls ended →
        calls = [] ∧ ended = .error noAttempts := by
    intro none calls ended played
    rw [retrying, if_pos none] at played
    exact Prog.plays_raise_iff.mp played
  have retried : 1 ≤ attempts →
      ∀ (outcomes : Nat → Except PyException α) calls ended,
        (retrying attempts retryOn).Plays calls ended →
          ScriptedFrom outcomes Returned 1 calls →
            RetriesExactly retryOn outcomes attempts.toNat calls ended := by
    intro positive outcomes calls ended played scripted
    rcases plays_retrying positive played with ⟨remaining, count, playedFrom⟩
    obtain ⟨final, rounds, same, retriable, started, within, lasting⟩ :=
      plays_retryingFrom (by omega) playedFrom scripted
    exact retriesExactly_of_rounds rounds same retriable started (by omega)
      (fun again => by have used := lasting again; omega)
  have met : ∀ (outcomes : Nat → Except PyException α)
      (delays : Nat → PyFloat),
      ∃ calls ended, (retrying attempts retryOn).Plays calls ended ∧
        ScriptedFrom outcomes (ReturnedWith delays) 1 calls := by
    intro outcomes delays
    exact exists_scripted (fun attempt => .ok (delays attempt))
      (fun _ => rfl) (fun _ _ _ => rfl) (fun _ => rfl) outcomes attempts retryOn
  exact ⟨retryAsync_eq_link fn attempts baseDelay maxDelay retryOn onRetry,
    refused, retried, met⟩

/-- Two transient errors and a value, of three attempts. -/
theorem retry_is_exactly_bounded_third_time :
    ∀ (calls : RetryTrace Nat) ended,
      (retrying 3 ExceptionClass.isTransient).Plays calls ended →
        ScriptedFrom
            (fun attempt => if attempt < 3
              then .error ⟨.databaseUnavailable, "down", none, none⟩
              else .ok 7)
            Returned 1 calls →
          timesCalled .fn calls = 3 ∧ ended = .ok (some 7) := by
  intro calls ended played scripted
  have exactly := (retry_is_exactly_bounded (.ret 7) 3 (1 / 5) 5
    ExceptionClass.isTransient fun _ _ _ => .ret ()).2.2.1 (by decide) _ calls
      ended played scripted
  have third : FirstLasting ExceptionClass.isTransient
      (fun attempt => if attempt < 3
        then .error ⟨.databaseUnavailable, "down", none, none⟩
        else (.ok 7 : Except PyException Nat)) 3 := by
    constructor
    · decide
    · exact not_retriable_ok 7
    · intro before _ earlier
      exact ⟨_, if_pos earlier, rfl⟩
  have settled := exactly.settles 3 third (by decide)
  exact ⟨settled.2.1, settled.2.2⟩

end Attempts

end TxnEvents
