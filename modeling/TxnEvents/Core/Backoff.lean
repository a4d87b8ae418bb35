import TxnEvents.Core.RetryCalls

/-!
# The backoff near the limit of the floating-point range

The power of two is converted to a `float` before the delay is capped, and
from the 1025th failure on it cannot be converted.  Up to there every delay
stays within its bound, and the error that comes out is the last one of `fn`.
-/

namespace TxnEvents

open Effects Python App

/-! ## One delay -/

section Delay

variable {baseDelay maxDelay : ℚ} {attempt : Nat}

theorem floatLimit_le_two_pow_iff {power : Nat} :
    floatLimit ≤ 2 ^ power ↔ 1024 ≤ power := by
  constructor
  · intro reached
    by_contra small
    have below : 2 ^ power < floatLimit := by
      unfold floatLimit
      apply Nat.pow_lt_pow_right Nat.one_lt_two
      omega
    omega
  · intro large
    unfold floatLimit
    apply Nat.pow_le_pow_right Nat.two_pos
    exact large

theorem floatLimit_pos : (0 : ℚ) < floatLimit := by
  have positive : 0 < floatLimit := by
    unfold floatLimit
    positivity
  exact_mod_cast positive

/-- The delay is within the bound of the failure after which it is slept. -/
def DelayWithin (baseDelay maxDelay : ℚ) (failure : Nat)
    (delay : PyFloat) : Prop :=
  ∃ seconds, delay = .finite seconds ∧ 0 ≤ seconds ∧
    seconds ≤ min maxDelay (baseDelay * 2 ^ (failure - 1))

/-- The capped product is a `float` again. -/
theorem minWith_scale
    (baseNonneg : 0 ≤ baseDelay)
    (baseFloat : IsFloat baseDelay)
    (maxNonneg : 0 ≤ maxDelay)
    (maxFloat : IsFloat maxDelay)
    {power : Nat}
    (convertible : power < 1024) :
    ∃ product ceiling, PyFloat.scale baseDelay (2 ^ power) = some product ∧
      PyFloat.minWith maxDelay product = .finite ceiling ∧
        IsFloat ceiling ∧ 0 ≤ ceiling ∧
          ceiling ≤ min maxDelay (baseDelay * 2 ^ power) := by
  have converts : ¬ floatLimit ≤ 2 ^ power := by
    rw [floatLimit_le_two_pow_iff]
    omega
  have productNonneg : 0 ≤ baseDelay * 2 ^ power :=
    mul_nonneg baseNonneg (by positivity)
  rw [PyFloat.scale, if_neg converts]
  push_cast
  by_cases overflows : (floatLimit : ℚ) ≤ baseDelay * 2 ^ power
  · have capped : maxDelay ≤ baseDelay * 2 ^ power :=
      (le_abs_self maxDelay).trans (maxFloat.below.le.trans overflows)
    refine ⟨_, maxDelay, if_pos overflows, rfl, maxFloat, maxNonneg, ?_⟩
    exact le_min (le_refl maxDelay) capped
  · have notNegative : ¬ baseDelay * 2 ^ power ≤ -(floatLimit : ℚ) := by
      have positive := floatLimit_pos
      linarith
    have productFloat : IsFloat (baseDelay * 2 ^ power) :=
      baseFloat.mul_two_pow power
        (by rw [abs_of_nonneg productNonneg]; exact not_le.mp overflows)
    rw [if_neg overflows, if_neg notNegative]
    by_cases smaller : baseDelay * 2 ^ power < maxDelay
    · refine ⟨_, baseDelay * 2 ^ power, rfl, if_pos smaller, productFloat,
        productNonneg, ?_⟩
      exact le_min smaller.le (le_refl _)
    · refine ⟨_, maxDelay, rfl, if_neg smaller, maxFloat, maxNonneg, ?_⟩
      exact le_min (le_refl maxDelay) (not_lt.mp smaller)

/-- What `compute_delay` comes to when the random number is drawn. -/
def DelayOf (baseDelay maxDelay : ℚ) (attempt : Nat)
    (reply : Except PyException PyFloat) : Prop :=
  ∃ trace, (computeDelay attempt baseDelay maxDelay).Plays trace reply ∧
    ∀ answer ∈ trace, ∃ value, answer.reply = .ok value

theorem DelayOf.within
    (baseNonneg : 0 ≤ baseDelay)
    (baseFloat : IsFloat baseDelay)
    (maxNonneg : 0 ≤ maxDelay)
    (maxFloat : IsFloat maxDelay)
    (early : attempt < 1025)
    {reply : Except PyException PyFloat}
    (computed : DelayOf baseDelay maxDelay attempt reply) :
    ∃ delay, reply = .ok delay ∧
      DelayWithin baseDelay maxDelay attempt delay := by
  rcases computed with ⟨trace, played, drawn⟩
  rcases minWith_scale baseNonneg baseFloat maxNonneg maxFloat
      (by omega : attempt - 1 < 1024) with
    ⟨product, ceiling, scaled, capped, float, nonneg, bound⟩
  rw [computeDelay, scaled] at played
  obtain ⟨answer, rest, rfl, continues⟩ := Prog.plays_call_iff.mp played
  cases answer with
  | error error =>
      have impossible := drawn _ (List.mem_cons_self ..)
      rcases impossible with ⟨value, same⟩
      cases same
  | ok draw =>
      have returned : reply =
          .ok ((PyFloat.minWith maxDelay product).uniform draw) :=
        (Prog.plays_ret_iff.mp continues).2
      have shrunk : ceiling * draw.value ≤ ceiling :=
        mul_le_of_le_one_right nonneg draw.belowOne.le
      rcases nearest_of_le (mul_nonneg nonneg draw.nonnegative) shrunk float
        with ⟨seconds, nearest, lower, upper⟩
      refine ⟨_, returned, seconds, ?_, lower, upper.trans bound⟩
      rw [capped]
      exact nearest

theorem DelayOf.overflows
    (late : 1025 ≤ attempt)
    {reply : Except PyException PyFloat}
    (computed : DelayOf baseDelay maxDelay attempt reply) :
    ∃ exc, reply = .error exc ∧ exc.cls = .overflowError := by
  rcases computed with ⟨trace, played, _⟩
  have tooLarge : floatLimit ≤ 2 ^ (attempt - 1) := by
    rw [floatLimit_le_two_pow_iff]
    omega
  rw [computeDelay, PyFloat.scale, if_pos tooLarge] at played
  exact ⟨_, (Prog.plays_raise_iff.mp played).2, rfl⟩

/-- There is always something that it comes to. -/
theorem exists_delayOf (baseDelay maxDelay : ℚ) (attempt : Nat) :
    ∃ reply, DelayOf baseDelay maxDelay attempt reply := by
  cases scaled : PyFloat.scale baseDelay (2 ^ (attempt - 1)) with
  | none =>
      have raises : ∃ reply,
          (computeDelay attempt baseDelay maxDelay).Plays [] reply := by
        rw [computeDelay, scaled]
        exact ⟨_, Prog.plays_raise_iff.mpr ⟨rfl, rfl⟩⟩
      rcases raises with ⟨reply, played⟩
      exact ⟨reply, [], played, by simp⟩
  | some product =>
      refine ⟨.ok ((PyFloat.minWith maxDelay product).uniform .zero),
        [⟨.random, .ok .zero⟩], ?_, ?_⟩
      · rw [computeDelay, scaled]
        exact Prog.plays_call_iff.mpr
          ⟨.ok .zero, [], rfl, Prog.plays_ret_iff.mpr ⟨rfl, rfl⟩⟩
      · intro answer member
        rw [List.mem_singleton.mp member]
        exact ⟨.zero, rfl⟩

end Delay

/-! ## All delays of a run -/

section Run

variable {α : Type} {retryOn : ExceptionClass → Bool} {attempts : Nat}
  {baseDelay maxDelay : ℚ}

/-- The backoff is computed; reports and sleeps return. -/
def BackedOff (baseDelay maxDelay : ℚ) : Answer (retrySig α) → Prop
  | ⟨.fn, _⟩ => True
  | ⟨.computeDelay attempt, reply⟩ => DelayOf baseDelay maxDelay attempt reply
  | ⟨.onRetry _ _ _, reply⟩ => reply = .ok ()
  | ⟨.sleep _, reply⟩ => reply = .ok ()

/-- The delays slept, in order. -/
def slept : RetryTrace α → List PyFloat
  | [] => []
  | ⟨.sleep delay, _⟩ :: rest => delay :: slept rest
  | ⟨.fn, _⟩ :: rest => slept rest
  | ⟨.computeDelay _, _⟩ :: rest => slept rest
  | ⟨.onRetry _ _ _, _⟩ :: rest => slept rest

/-- After every failure the delays slept are those of its backoff. -/
def SleptWithin (baseDelay maxDelay : ℚ) (attempt : Nat)
    (delays : List PyFloat) : Prop :=
  ∀ index delay, delays[index]? = some delay →
    DelayWithin baseDelay maxDelay (attempt + index) delay

theorem SleptWithin.cons
    {attempt : Nat}
    {delay : PyFloat}
    {delays : List PyFloat}
    (first : DelayWithin baseDelay maxDelay attempt delay)
    (rest : SleptWithin baseDelay maxDelay (attempt + 1) delays) :
    SleptWithin baseDelay maxDelay attempt (delay :: delays) := by
  intro index other at_index
  cases index with
  | zero =>
      rw [List.getElem?_cons_zero] at at_index
      cases at_index
      exact first
  | succ index =>
      rw [List.getElem?_cons_succ] at at_index
      have later := rest index other at_index
      rwa [show attempt + 1 + index = attempt + (index + 1) by omega] at later

/-- A pause either ends with the error of the backoff or sleeps its delay. -/
theorem plays_pausing_backedOff
    {outcomes : Nat → Except PyException α}
    {attempt turn : Nat}
    {exc : PyException}
    {next : Prog (retrySig α) (Option α)}
    {calls : RetryTrace α}
    {ended : Except PyException (Option α)}
    (played : (pausing attempt exc next).Plays calls ended)
    (scripted : ScriptedFrom outcomes (BackedOff baseDelay maxDelay) turn calls) :
    (∃ error, DelayOf baseDelay maxDelay attempt (.error error) ∧
      calls = [⟨.computeDelay attempt, .error error⟩] ∧
        ended = .error error) ∨
    ∃ (delay : PyFloat) (rest : RetryTrace α),
      DelayOf baseDelay maxDelay attempt (.ok delay) ∧
        calls =
            ⟨.computeDelay attempt, .ok delay⟩ ::
              ⟨.onRetry attempt exc delay, .ok ()⟩ ::
                ⟨.sleep delay, .ok ()⟩ :: rest ∧
          next.Plays rest ended ∧
            ScriptedFrom outcomes (BackedOff baseDelay maxDelay) turn rest := by
  have computing : RetryCall.computeDelay attempt ≠ .fn := by simp
  obtain ⟨reply, counting, rfl, computed, countingScripted, reporting⟩ :=
    plays_calling_bind computing played scripted
  cases reply with
  | error error =>
      obtain ⟨rfl, rfl⟩ := Prog.plays_raise_iff.mp reporting
      exact Or.inl ⟨error, computed, rfl, rfl⟩
  | ok delay =>
      have telling : RetryCall.onRetry attempt exc delay ≠ .fn := by simp
      obtain ⟨_, sleeping, rfl, told, sleepingScripted, resting⟩ :=
        plays_calling_bind telling reporting countingScripted
      cases told
      have waiting : RetryCall.sleep delay ≠ .fn := by simp
      obtain ⟨_, rest, rfl, waited, restScripted, continues⟩ :=
        plays_calling_bind waiting resting sleepingScripted
      cases waited
      exact Or.inr ⟨delay, rest, computed, rfl, continues, restScripted⟩

/-- Up to 1025 attempts no backoff fails, by induction on those that remain. -/
theorem plays_retryingFrom_few
    (baseNonneg : 0 ≤ baseDelay)
    (baseFloat : IsFloat baseDelay)
    (maxNonneg : 0 ≤ maxDelay)
    (maxFloat : IsFloat maxDelay)
    (few : attempts ≤ 1025)
    {outcomes : Nat → Except PyException α}
    (retriable : ∀ attempt, Retriable retryOn (outcomes attempt))
    {attempt remaining : Nat}
    {calls : RetryTrace α}
    {ended : Except PyException (Option α)}
    (count : attempt + remaining = attempts)
    (played :
      (retryingFrom attempts retryOn attempt (remaining + 1)).Plays calls
        ended)
    (scripted :
      ScriptedFrom outcomes (BackedOff baseDelay maxDelay) attempt calls) :
    attempt + timesCalled .fn calls = attempts + 1 ∧
      SleptWithin baseDelay maxDelay attempt (slept calls) ∧
        ended = (outcomes attempts).map some := by
  induction remaining generalizing attempt calls with
  | zero =>
      rcases plays_retryingFrom_succ played with
        ⟨outcome, rest, rfl, ⟨rfl, same, _⟩ | ⟨_, _, _, earlier, _⟩⟩
      · obtain ⟨rfl, _⟩ := scripted
        have last : attempt = attempts := by omega
        rw [← last]
        refine ⟨rfl, ?_, same⟩
        intro index delay at_index
        simp [slept] at at_index
      · omega
  | succ remaining inductionHypothesis =>
      rcases plays_retryingFrom_succ played with
        ⟨outcome, rest, rfl, ⟨rfl, _, final⟩ |
          ⟨exc, failed, _, earlier, pausing⟩⟩
      · obtain ⟨rfl, _⟩ := scripted
        have used := final (retriable attempt)
        omega
      · obtain ⟨scriptedOutcome, restScripted⟩ := scripted
        have early : attempt < 1025 := by omega
        rcases plays_pausing_backedOff pausing restScripted with
          ⟨error, computed, _⟩ |
            ⟨delay, later, computed, rfl, continues, laterScripted⟩
        · rcases computed.within baseNonneg baseFloat maxNonneg maxFloat early
            with ⟨_, impossible, _⟩
          cases impossible
        · rcases computed.within baseNonneg baseFloat maxNonneg maxFloat early
            with ⟨_, same, within⟩
          cases same
          obtain ⟨counted, bounded, lastError⟩ :=
            inductionHypothesis (by omega) continues laterScripted
          refine ⟨?_, bounded.cons within, lastError⟩
          rw [timesCalled_fn_pause]
          omega

/-- Of more attempts no more than 1025 are made, and then the backoff
fails. -/
theorem plays_retryingFrom_many
    (many : 1025 < attempts)
    {outcomes : Nat → Except PyException α}
    (retriable : ∀ attempt, Retriable retryOn (outcomes attempt))
    {attempt remaining : Nat}
    {calls : RetryTrace α}
    {ended : Except PyException (Option α)}
    (reached : attempt ≤ 1025)
    (count : attempt + remaining = attempts)
    (played :
      (retryingFrom attempts retryOn attempt (remaining + 1)).Plays calls
        ended)
    (scripted :
      ScriptedFrom outcomes (BackedOff baseDelay maxDelay) attempt calls) :
    attempt + timesCalled .fn calls ≤ 1026 := by
  induction remaining generalizing attempt calls with
  | zero => omega
  | succ remaining inductionHypothesis =>
      rcases plays_retryingFrom_succ played with
        ⟨outcome, rest, rfl, ⟨rfl, _, final⟩ |
          ⟨exc, failed, _, earlier, pausing⟩⟩
      · obtain ⟨rfl, _⟩ := scripted
        have used := final (retriable attempt)
        omega
      · obtain ⟨_, restScripted⟩ := scripted
        rcases plays_pausing_backedOff pausing restScripted with
          ⟨error, _, rfl, _⟩ |
            ⟨delay, later, computed, rfl, continues, laterScripted⟩
        · rw [timesCalled_cons_self, timesCalled_cons_of_ne (by simp)]
          have none : timesCalled .fn ([] : RetryTrace α) = 0 := rfl
          omega
        · have early : attempt < 1025 := by
            by_contra late
            rcases computed.overflows (not_lt.mp late) with
              ⟨_, impossible, _⟩
            cases impossible
          have counted :=
            inductionHypothesis (by omega) (by omega) continues laterScripted
          rw [timesCalled_fn_pause]
          omega

/-- Whenever `fn` fails with a retriable error on every call, all attempts are
made, every delay is within its bound, and the last error comes out. -/
def BackoffNeverFails (α : Type) (attempts : Nat) (baseDelay maxDelay : ℚ)
    (retryOn : ExceptionClass → Bool) : Prop :=
  ∀ (outcomes : Nat → Except PyException α) calls ended,
    (∀ attempt, Retriable retryOn (outcomes attempt)) →
      (retrying attempts retryOn).Plays calls ended →
        ScriptedFrom outcomes (BackedOff baseDelay maxDelay) 1 calls →
          timesCalled .fn calls = attempts ∧
            SleptWithin baseDelay maxDelay 1 (slept calls) ∧
              ∃ exc, outcomes attempts = .error exc ∧ ended = .error exc

theorem backoffNeverFails_of_few
    (baseNonneg : 0 ≤ baseDelay)
    (baseFloat : IsFloat baseDelay)
    (maxNonneg : 0 ≤ maxDelay)
    (maxFloat : IsFloat maxDelay)
    (positive : 1 ≤ attempts)
    (few : attempts ≤ 1025) :
    BackoffNeverFails α attempts baseDelay maxDelay retryOn := by
  intro outcomes calls ended retriable played scripted
  rcases plays_retrying (by omega) played with ⟨remaining, count, playedFrom⟩
  obtain ⟨counted, bounded, same⟩ :=
    plays_retryingFrom_few baseNonneg baseFloat maxNonneg maxFloat few
      retriable (by omega) playedFrom scripted
  rcases retriable attempts with ⟨exc, failed, _⟩
  refine ⟨by omega, bounded, exc, failed, ?_⟩
  rw [same, failed]
  rfl

theorem not_backoffNeverFails_of_many
    (many : 1025 < attempts)
    {cls : ExceptionClass}
    (retried : retryOn cls = true) :
    ¬ BackoffNeverFails α attempts baseDelay maxDelay retryOn := by
  intro neverFails
  have computed : ∀ attempt, ∃ reply,
      DelayOf baseDelay maxDelay attempt reply :=
    exists_delayOf baseDelay maxDelay
  choose delayed delayOf using computed
  have retriable : ∀ _ : Nat,
      Retriable retryOn (.error ⟨cls, "", none, none⟩ : Except PyException α) :=
    fun _ => ⟨_, rfl, retried⟩
  have met : ∃ calls ended, (retrying attempts retryOn).Plays calls ended ∧
      ScriptedFrom
        (fun _ => (.error ⟨cls, "", none, none⟩ : Except PyException α))
        (BackedOff baseDelay maxDelay) 1 calls :=
    exists_scripted delayed delayOf (fun _ _ _ => rfl) (fun _ => rfl) _ _ _
  rcases met with ⟨calls, ended, played, scripted⟩
  have made := (neverFails _ calls ended retriable played scripted).1
  rcases plays_retrying (by omega) played with ⟨remaining, count, playedFrom⟩
  have counted :=
    plays_retryingFrom_many many retriable (by omega) (by omega) playedFrom
      scripted
  omega

/-- The backoff never fails on its own exactly up to 1025 attempts. -/
theorem backoff_never_fails_iff
    (fn : App α)
    (attempts : Nat)
    (baseDelay maxDelay : ℚ)
    (retryOn : ExceptionClass → Bool)
    (onRetry : OnRetry)
    (positive : 1 ≤ attempts)
    (baseNonneg : 0 ≤ baseDelay)
    (baseFloat : IsFloat baseDelay)
    (maxNonneg : 0 ≤ maxDelay)
    (maxFloat : IsFloat maxDelay) :
    retryAsync fn attempts baseDelay maxDelay retryOn onRetry =
        (retrying attempts retryOn).link
          (retryCallees fn baseDelay maxDelay onRetry) ∧
      (BackoffNeverFails α attempts baseDelay maxDelay retryOn ↔
        attempts ≤ 1025 ∨ ∀ cls, retryOn cls = false) := by
  refine ⟨retryAsync_eq_link fn attempts baseDelay maxDelay retryOn onRetry,
    ?_⟩
  constructor
  · intro neverFails
    by_contra beyond
    push Not at beyond
    rcases beyond with ⟨many, cls, retried⟩
    exact not_backoffNeverFails_of_many many (by simpa using retried) neverFails
  · rintro (few | nothing)
    · exact backoffNeverFails_of_few baseNonneg baseFloat maxNonneg maxFloat
        positive few
    · intro outcomes calls ended retriable
      rcases retriable 1 with ⟨exc, _, retried⟩
      rw [nothing exc.cls] at retried
      cases retried

theorem eight_lt_floatLimit : (8 : ℚ) < floatLimit := by
  have below : 2 ^ 3 < floatLimit := by
    rw [← not_le, floatLimit_le_two_pow_iff]
    decide
  exact_mod_cast below

theorem isFloat_quarter : IsFloat (1 / 4) := by
  have digits : (1 / 4 : ℚ) = (1 : ℤ) * 2 ^ (-2 : ℤ) := by norm_num
  have below : |(1 / 4 : ℚ)| < floatLimit := by
    rw [abs_of_pos (by norm_num)]
    exact lt_trans (by norm_num) eight_lt_floatLimit
  exact isFloat_of_digits digits (by decide) (by decide) below

theorem isFloat_five : IsFloat 5 := by
  have digits : (5 : ℚ) = (5 : ℤ) * 2 ^ (0 : ℤ) := by norm_num
  have below : |(5 : ℚ)| < floatLimit := by
    rw [abs_of_pos (by norm_num)]
    exact lt_trans (by norm_num) eight_lt_floatLimit
  exact isFloat_of_digits digits (by decide) (by decide) below

theorem backoff_never_fails_iff_twenty :
    BackoffNeverFails Nat 20 (1 / 4) 5 ExceptionClass.isTransient :=
  (backoff_never_fails_iff (.ret 7) 20 (1 / 4) 5 ExceptionClass.isTransient
    (fun _ _ _ => .ret ()) (by decide) (by norm_num) isFloat_quarter
    (by norm_num) isFloat_five).2.mpr (Or.inl (by decide))

/-- The 1026th attempt is never made: the backoff before it overflows. -/
theorem backoff_fails_at_the_limit :
    ¬ BackoffNeverFails Nat 1026 (1 / 4) 5 ExceptionClass.isTransient :=
  not_backoffNeverFails_of_many (by decide)
    (show ExceptionClass.isTransient .databaseUnavailable = true from rfl)

end Run

end TxnEvents
