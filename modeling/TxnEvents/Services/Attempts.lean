import TxnEvents.Effects.Retries
import TxnEvents.Services.Lookups
import TxnEvents.Services.Processor

/-!
# The traces of a retried operation

What `retry_async` makes of its attempts when the backoff can be computed: an
attempt after each transient failure, at most as many as allowed, with a draw,
a count and a sleep in between.
-/

namespace TxnEvents

open Effects Python App

/-- An error is none of the program's own. -/
def Foreign {α : Type} (ended : Except PyException α) : Prop :=
  ∀ error, ended = .error error → error.cls.isOwn = false

/-- The answer disturbs no delivery: what stays in the process and what goes
to Redis succeeds, and errors are those of the libraries. -/
structure Undisturbed (answer : Answer appSig) : Prop where
  inside : LocallyAnswered answer
  redis : answer.command.isRedis = true → ∃ value, answer.reply = .ok value
  foreign : Foreign answer.reply

theorem undisturbed_ok {command : Command} (value : command.Reply) :
    Undisturbed ⟨command, .ok value⟩ where
  inside := fun _ => ⟨value, rfl⟩
  redis := fun _ => ⟨value, rfl⟩
  foreign := by
    intro error same
    cases same

theorem undisturbed_error {command : Command} {error : PyException}
    (outside : command.staysInside = false)
    (elsewhere : command.isRedis = false) (foreign : error.cls.isOwn = false) :
    Undisturbed ⟨command, .error error⟩ where
  inside := by
    intro inside
    rw [outside] at inside
    cases inside
  redis := by
    intro redis
    rw [elsewhere] at redis
    cases redis
  foreign := by
    intro raised same
    cases same
    exact foreign

def AllUndisturbed (trace : AppTrace) : Prop :=
  ∀ answer ∈ trace, Undisturbed answer

section AllUndisturbed

variable {early late trace : AppTrace}

theorem AllUndisturbed.append_left
    (undisturbed : AllUndisturbed (early ++ late)) : AllUndisturbed early :=
  fun answer member => undisturbed answer (List.mem_append_left late member)

theorem AllUndisturbed.append_right
    (undisturbed : AllUndisturbed (early ++ late)) : AllUndisturbed late :=
  fun answer member => undisturbed answer (List.mem_append_right early member)

theorem AllUndisturbed.localAnswers (undisturbed : AllUndisturbed trace) :
    LocalAnswers trace :=
  fun answer member => (undisturbed answer member).inside

theorem AllUndisturbed.tail {answer : Answer appSig}
    (undisturbed : AllUndisturbed (answer :: trace)) : AllUndisturbed trace :=
  fun other member => undisturbed other (List.mem_cons_of_mem answer member)

/-- A command that stays in the process or goes to Redis, and what follows
it. -/
theorem AllUndisturbed.of_perform_bind {α : Type} {command : Command}
    {next : command.Reply → App α} {outcome : Except PyException α}
    (undisturbed : AllUndisturbed trace)
    (played : Prog.Plays ((ask command).bind next) trace outcome)
    (sure : (command.staysInside || command.isRedis) = true) :
    ∃ value rest, trace = ⟨command, .ok value⟩ :: rest ∧
      (next value).Plays rest outcome := by
  have succeeds : ∀ reply, (⟨command, reply⟩ : Answer appSig) ∈ trace →
      ∃ value, reply = .ok value := by
    intro reply member
    have here := undisturbed _ member
    rcases Bool.or_eq_true_iff.mp sure with inside | redis
    · exact here.inside inside
    · exact here.redis redis
  rcases Prog.plays_bind_iff.mp played with
    ⟨value, early, late, rfl, performed, continues⟩ | ⟨error, _, failed⟩
  · have alone := Prog.plays_perform_iff.mp performed
    rw [alone]
    exact ⟨value, late, rfl, continues⟩
  · have alone := Prog.plays_perform_iff.mp failed
    obtain ⟨_, impossible⟩ :=
      succeeds (.error error) (by rw [alone]; exact List.mem_singleton_self _)
    cases impossible

/-- The last command of a program. -/
theorem AllUndisturbed.of_perform {command : Command}
    {outcome : Except PyException command.Reply}
    (undisturbed : AllUndisturbed trace)
    (played : (ask command).Plays trace outcome)
    (sure : (command.staysInside || command.isRedis) = true) :
    ∃ value, outcome = .ok value ∧ trace = [⟨command, .ok value⟩] := by
  have alone := Prog.plays_perform_iff.mp played
  have here := undisturbed ⟨command, outcome⟩
    (by rw [alone]; exact List.mem_singleton_self _)
  have succeeds : ∃ value, outcome = .ok value := by
    rcases Bool.or_eq_true_iff.mp sure with inside | redis
    · exact here.inside inside
    · exact here.redis redis
  obtain ⟨value, same⟩ := succeeds
  rw [same] at alone
  exact ⟨value, same, alone⟩

end AllUndisturbed

/-- The operation ended with a transient error. -/
def Transient {α : Type} (ended : Except PyException α) : Prop :=
  ∃ exc, ended = .error exc ∧ exc.cls.isTransient = true

@[simp]
theorem transient_error_iff {α : Type} {exc : PyException} :
    Transient (.error exc : Except PyException α) ↔
      exc.cls.isTransient = true := by
  simp [Transient]

@[simp]
theorem not_transient_ok {α : Type} (value : α) :
    ¬ Transient (.ok value : Except PyException α) := by
  simp [Transient]

/-- What happens between two attempts. -/
inductive Pauses (operation : RetriedOperation) : AppTrace → Prop
  | backoff (draw : UnitDraw) (delay : PyFloat) :
      Pauses operation
        [⟨.random, .ok draw⟩, ⟨.inc (.retries operation), .ok ()⟩,
          ⟨.sleep delay, .ok ()⟩]

/-- No backoff before one of the attempts overflows. -/
def BackoffDefined (settings : Settings) (attempts : Nat) : Prop :=
  ∀ attempt, 1 ≤ attempt → attempt < attempts →
    PyFloat.scale settings.retryBaseDelayS (2 ^ (attempt - 1)) ≠ none

section Retry

variable {α Outcome : Type} {fn : App α} {attempts : Nat}
  {settings : Settings} {trace : AppTrace}

theorem plays_computeDelay {attempt : Nat} {baseDelay maxDelay : ℚ}
    {outcome : Except PyException PyFloat}
    (defined : PyFloat.scale baseDelay (2 ^ (attempt - 1)) ≠ none)
    (played : (computeDelay attempt baseDelay maxDelay).Plays trace outcome)
    (undisturbed : AllUndisturbed trace) :
    ∃ delay draw, outcome = .ok delay ∧ trace = [⟨.random, .ok draw⟩] := by
  rw [computeDelay] at played
  split at played
  case h_1 overflows => exact absurd overflows defined
  case h_2 product _ =>
    obtain ⟨draw, rest, rfl, returned⟩ :=
      undisturbed.of_perform_bind played rfl
    obtain ⟨rfl, ended⟩ := Prog.plays_ret_iff.mp returned
    exact ⟨_, draw, ended, rfl⟩

/-- The pause before the next attempt, and what follows it. -/
theorem plays_pause {operation : RetriedOperation} {attempt : Nat}
    {exc : PyException} {next : App α} {outcome : Except PyException α}
    (defined :
      PyFloat.scale settings.retryBaseDelayS (2 ^ (attempt - 1)) ≠ none)
    (played :
      ((computeDelay attempt settings.retryBaseDelayS
          settings.retryMaxDelayS).bind fun delay =>
        (onRetry operation attempt exc delay).bind fun _ =>
          (sleep delay).bind fun _ => next).Plays trace outcome)
    (undisturbed : AllUndisturbed trace) :
    ∃ pause late, trace = pause ++ late ∧ Pauses operation pause ∧
      next.Plays late outcome := by
  rcases Prog.plays_bind_iff.mp played with
    ⟨delay, drawn, rest, rfl, computed, counting⟩ | ⟨error, _, failed⟩
  · obtain ⟨_, draw, same, rfl⟩ :=
      plays_computeDelay defined computed undisturbed.append_left
    have restUndisturbed := undisturbed.append_right
    obtain ⟨_, later, rfl, sleeping⟩ :=
      restUndisturbed.of_perform_bind counting rfl
    obtain ⟨_, late, rfl, continues⟩ :=
      restUndisturbed.tail.of_perform_bind sleeping rfl
    exact ⟨_, late, rfl, Pauses.backoff draw delay, continues⟩
  · obtain ⟨_, _, impossible, _⟩ :=
      plays_computeDelay defined failed undisturbed
    cases impossible

variable {shows : AppTrace → Outcome → Prop}
  {result : Outcome → Except PyException α} {retriable : Outcome → Prop}

/-- Every attempt shows an outcome, which is retriable when the attempt ends
with a transient error. -/
def Understood (fn : App α) (shows : AppTrace → Outcome → Prop)
    (result : Outcome → Except PyException α)
    (retriable : Outcome → Prop) : Prop :=
  ∀ trace ended, fn.Plays trace ended → AllUndisturbed trace →
    ∃ outcome, shows trace outcome ∧ result outcome = ended ∧
      (Transient ended ↔ retriable outcome)

/-- How the attempts of a retried operation end it. -/
inductive Concluded (result : Outcome → Except PyException α)
    (retriable : Outcome → Prop) (attempts : Nat)
    (outcomes : List Outcome) : Except PyException (Option α) → Prop
  | settled {last : Outcome} :
      Settles retriable attempts outcomes last →
        Concluded result retriable attempts outcomes ((result last).map some)
  | exhausted {exc : PyException} :
      Exhausts retriable attempts outcomes → exc.cls.isTransient = true →
        Concluded result retriable attempts outcomes (.error exc)

theorem Concluded.cons {outcomes : List Outcome} {first : Outcome}
    {ended : Except PyException (Option α)} (again : retriable first)
    (concluded : Concluded result retriable attempts outcomes ended) :
    Concluded result retriable (attempts + 1) (first :: outcomes) ended := by
  cases concluded with
  | settled settles => exact Concluded.settled (settles.cons again)
  | exhausted exhausts transient =>
      exact Concluded.exhausted (exhausts.cons again) transient

theorem Concluded.of_ok {outcomes : List Outcome} {value? : Option α}
    (concluded : Concluded result retriable attempts outcomes (.ok value?)) :
    ∃ last value, Settles retriable attempts outcomes last ∧
      result last = .ok value ∧ value? = some value := by
  generalize same : (Except.ok value? : Except PyException (Option α)) = ended
    at concluded
  cases concluded with
  | @settled last settles =>
      cases ended : result last with
      | error exc =>
          rw [ended] at same
          cases same
      | ok value =>
          rw [ended] at same
          cases same
          exact ⟨last, value, settles, ended, rfl⟩
  | exhausted => cases same

theorem Concluded.of_error {outcomes : List Outcome} {exc : PyException}
    (concluded : Concluded result retriable attempts outcomes (.error exc)) :
    Exhausts retriable attempts outcomes ∧ exc.cls.isTransient = true ∨
      ∃ last, Settles retriable attempts outcomes last ∧
        result last = .error exc := by
  generalize same : (Except.error exc : Except PyException (Option α)) = ended
    at concluded
  cases concluded with
  | @settled last settles =>
      cases ended : result last with
      | error raised =>
          rw [ended] at same
          cases same
          exact Or.inr ⟨last, settles, ended⟩
      | ok value =>
          rw [ended] at same
          cases same
  | exhausted exhausts transient =>
      cases same
      exact Or.inl ⟨exhausts, transient⟩

/-- One attempt, and whether it is the last. -/
theorem plays_retryFrom_succ {operation : RetriedOperation}
    {attempt remaining : Nat} {outcome : Except PyException (Option α)}
    (played : (retryFrom fn attempts settings.retryBaseDelayS
      settings.retryMaxDelayS ExceptionClass.isTransient (onRetry operation)
        attempt (remaining + 1)).Plays trace outcome) :
    (∃ ended, fn.Plays trace ended ∧ outcome = ended.map some ∧
      (Transient ended → attempts ≤ attempt)) ∨
    ∃ exc early late, trace = early ++ late ∧
      fn.Plays early (.error exc) ∧ Transient (.error exc : Except _ α) ∧
        attempt < attempts ∧
          ((computeDelay attempt settings.retryBaseDelayS
              settings.retryMaxDelayS).bind fun delay =>
            (onRetry operation attempt exc delay).bind fun _ =>
              (sleep delay).bind fun _ =>
                retryFrom fn attempts settings.retryBaseDelayS
                  settings.retryMaxDelayS ExceptionClass.isTransient
                  (onRetry operation) (attempt + 1) remaining).Plays
            late outcome := by
  rw [retryFrom] at played
  rcases Prog.plays_bind_iff.mp played with
    ⟨ended, early, late, rfl, tried, continues⟩ | ⟨error, _, failed⟩
  · obtain ⟨_, same, ran⟩ := Prog.plays_attempt_iff.mp tried
    cases same
    cases ended with
    | ok value =>
        obtain ⟨rfl, same⟩ := Prog.plays_ret_iff.mp continues
        rw [List.append_nil]
        exact Or.inl ⟨.ok value, ran, same,
          fun transient => absurd transient (not_transient_ok value)⟩
    | error exc =>
        dsimp only at continues
        split at continues
        case isTrue lasting =>
          obtain ⟨rfl, same⟩ := Prog.plays_raise_iff.mp continues
          rw [List.append_nil]
          refine Or.inl ⟨.error exc, ran, same, ?_⟩
          intro transient
          rw [transient_error_iff, lasting] at transient
          cases transient
        case isFalse passing =>
          split at continues
          case isTrue final =>
            obtain ⟨rfl, same⟩ := Prog.plays_raise_iff.mp continues
            rw [List.append_nil]
            exact Or.inl ⟨.error exc, ran, same,
              fun _ => Int.ofNat_le.mp final⟩
          case isFalse again =>
            have transient : exc.cls.isTransient = true := by
              simpa using passing
            have earlier : attempt < attempts := by omega
            exact Or.inr ⟨exc, early, late, rfl, ran, ⟨exc, rfl, transient⟩,
              earlier, continues⟩
  · obtain ⟨_, impossible, _⟩ := Prog.plays_attempt_iff.mp failed
    cases impossible

theorem plays_retryFrom {operation : RetriedOperation}
    {attempt remaining : Nat} {outcome : Except PyException (Option α)}
    (understood : Understood fn shows result retriable)
    (defined : BackoffDefined settings attempts)
    (started : 1 ≤ attempt) (count : attempt + remaining = attempts)
    (played : (retryFrom fn attempts settings.retryBaseDelayS
      settings.retryMaxDelayS ExceptionClass.isTransient (onRetry operation)
        attempt (remaining + 1)).Plays trace outcome)
    (undisturbed : AllUndisturbed trace) :
    ∃ outcomes, Repeats shows (Pauses operation) trace outcomes ∧
      Concluded result retriable (remaining + 1) outcomes outcome := by
  induction remaining generalizing attempt trace with
  | zero =>
      rcases plays_retryFrom_succ played with
        ⟨ended, ran, same, _⟩ | ⟨_, _, _, _, _, _, earlier, _⟩
      · obtain ⟨shown, shows, same', iff⟩ := understood _ _ ran undisturbed
        refine ⟨[shown], Repeats.last shows, ?_⟩
        by_cases transient : Transient ended
        · obtain ⟨exc, rfl, passing⟩ := transient
          rw [same]
          exact Concluded.exhausted
            (Exhausts.single (iff.mp ⟨exc, rfl, passing⟩)) passing
        · rw [same, ← same']
          exact Concluded.settled
            (Settles.single (fun again => transient (iff.mpr again)) (Nat.le_refl 1))
      · omega
  | succ remaining inductionHypothesis =>
      rcases plays_retryFrom_succ played with
        ⟨ended, ran, same, final⟩ | ⟨exc, early, late, rfl, ran, transient, _, continues⟩
      · obtain ⟨shown, shows, same', iff⟩ := understood _ _ ran undisturbed
        refine ⟨[shown], Repeats.last shows, ?_⟩
        have lasting : ¬ retriable shown := by
          intro again
          have := final (iff.mpr again)
          omega
        rw [same, ← same']
        exact Concluded.settled (Settles.single lasting (by omega))
      · obtain ⟨shown, shows, _, iff⟩ :=
          understood _ _ ran undisturbed.append_left
        have laterUndisturbed := undisturbed.append_right
        obtain ⟨pause, rest, rfl, paused, later⟩ :=
          plays_pause (defined attempt started (by omega)) continues
            laterUndisturbed
        obtain ⟨outcomes, repeats, concluded⟩ :=
          inductionHypothesis (by omega) (by omega) later
            laterUndisturbed.append_right
        exact ⟨shown :: outcomes, Repeats.again shows paused repeats,
          concluded.cons (iff.mp transient)⟩

/-- The trace of a retried operation is its attempts, and the attempts decide
how it ends. -/
theorem plays_retryAsync {operation : RetriedOperation}
    {outcome : Except PyException (Option α)}
    (understood : Understood fn shows result retriable)
    (defined : BackoffDefined settings attempts) (positive : 1 ≤ attempts)
    (played : (retryAsync fn attempts settings.retryBaseDelayS
      settings.retryMaxDelayS ExceptionClass.isTransient
        (onRetry operation)).Plays trace outcome)
    (undisturbed : AllUndisturbed trace) :
    ∃ outcomes, Repeats shows (Pauses operation) trace outcomes ∧
      Concluded result retriable attempts outcomes outcome := by
  obtain ⟨remaining, rfl⟩ := Nat.exists_eq_add_of_le' positive
  have enough : ¬ ((remaining + 1 : Nat) : Int) < 1 := by omega
  rw [retryAsync, if_neg enough, Int.toNat_natCast] at played
  exact plays_retryFrom understood defined (Nat.le_refl 1) (Nat.add_comm 1 _)
    played undisturbed

end Retry

end TxnEvents
