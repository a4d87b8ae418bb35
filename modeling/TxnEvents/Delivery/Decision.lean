import TxnEvents.Delivery.NoLoss
import TxnEvents.Services.History

/-!
# What decides the fate of a delivery

The lookups and insertions that a delivery met decide what `handle` writes to
Redis.
-/

namespace TxnEvents

open Effects Arith Python App

/-- The commands of a trace that went to Redis, oldest first. -/
def redisCommands (trace : AppTrace) : List Command :=
  (trace.map Answer.command).filter Command.isRedis

/-! ## Verdicts -/

inductive Verdict
  | acknowledged
  | leftPending
  | buried (reason : String)

/-- What is written to Redis. -/
def Verdict.commands (msg : StreamMessage) : Verdict → List Command
  | acknowledged => [.xack msg.msgId]
  | leftPending => []
  | buried reason =>
      [.xaddDlq msg.msgId (msg.rawFields.set "reason" reason),
        .xack msg.msgId]

/-- The fate of a delivery that a service was not there for. -/
def outage (world : World) (msg : StreamMessage) : Verdict :=
  if world.settings.maxDeliveries ≤ msg.deliveryCount then
    .buried "max deliveries exceeded"
  else .leftPending

section Decided

variable (world : World) (msg : StreamMessage)

/-- The lookups end with this one, which is no outage. -/
def Resolved (outcomes : List Lookup) (last : Lookup) : Prop :=
  Settles Lookup.Unavailable world.settings.rateAttempts outcomes last

/-- The lookups end with a rate, and the amount is converted with it. -/
def Converted (outcomes : List Lookup) : Prop :=
  ∃ last rate amountUsd, Resolved world outcomes last ∧
    last.result world msg.event.currency = .ok rate ∧
      convertToUsd msg.event.amount rate = .ok amountUsd

/-- What the lookups and the insertions decide. -/
inductive Decided : List Lookup → List Insertion → Verdict → Prop
  | rateServiceUnavailable {outcomes : List Lookup} :
      Exhausts Lookup.Unavailable world.settings.rateAttempts outcomes →
        Decided outcomes [] (outage world msg)
  | unknownCurrency {outcomes : List Lookup} {response : HttpResponse} :
      Resolved world outcomes (.answered (.ok response)) →
        response.statusCode = 404 →
          Decided outcomes []
            (.buried (unknownCurrency world msg.event.currency).text)
  | lookupFailed {outcomes : List Lookup} {last : Lookup}
      {exc : PyException} :
      Resolved world outcomes last →
        (∀ response, last = .answered (.ok response) →
          response.statusCode ≠ 404) →
          last.result world msg.event.currency = .error exc →
            Decided outcomes [] (.buried ("unexpected error: " ++ exc.text))
  | conversionFailed {outcomes : List Lookup} {last : Lookup}
      {rate : Decimal} {signal : Signal} :
      Resolved world outcomes last →
        last.result world msg.event.currency = .ok rate →
          convertToUsd msg.event.amount rate = .error signal →
            Decided outcomes []
              (.buried ("unexpected error: " ++ (raisedSignal signal).text))
  | databaseUnavailable {outcomes : List Lookup}
      {inserted : List Insertion} :
      Converted world msg outcomes →
        Exhausts Insertion.Refused world.settings.dbAttempts inserted →
          Decided outcomes inserted (outage world msg)
  | insertFailed {outcomes : List Lookup} {inserted : List Insertion}
      {exc : PyException} :
      Converted world msg outcomes →
        Settles Insertion.Refused world.settings.dbAttempts inserted
            (.error exc) →
          Decided outcomes inserted
            (.buried ("unexpected error: " ++ exc.text))
  | stored {outcomes : List Lookup} {inserted : List Insertion}
      {wasInserted : Bool} :
      Converted world msg outcomes →
        Settles Insertion.Refused world.settings.dbAttempts inserted
            (.ok wasInserted) →
          Decided outcomes inserted .acknowledged

end Decided

theorem redisCommands_append (early late : AppTrace) :
    redisCommands (early ++ late) =
      redisCommands early ++ redisCommands late := by
  simp [redisCommands]

theorem redisCommands_eq_nil {trace : AppTrace}
    (others : ∀ answer ∈ trace, answer.command.isRedis = false) :
    redisCommands trace = [] := by
  simpa [redisCommands] using others

/-! ## The verdict -/

/-- The verdict of `handle` on how processing ended. -/
def verdictOf (world : World) (msg : StreamMessage) :
    Except PyException Outcome → Verdict
  | .ok _ => .acknowledged
  | .error exc =>
      if exc.cls.isPermanent = true then .buried exc.text
      else if exc.cls.isTransient = true then outage world msg
      else .buried ("unexpected error: " ++ exc.text)

section Verdicts

variable {world : World} {msg : StreamMessage} {trace : AppTrace}

variable (world msg) in
theorem verdictOf_transient {exc : PyException}
    (transient : exc.cls.isTransient = true) :
    verdictOf world msg (.error exc) = outage world msg := by
  have passing : ¬ exc.cls.isPermanent = true := by
    rw [ExceptionClass.not_permanent_of_transient transient]
    decide
  rw [verdictOf, if_neg passing, if_pos transient]

theorem verdictOf_unexpected {exc : PyException}
    (passing : exc.cls.isPermanent = false)
    (lasting : exc.cls.isTransient = false) :
    verdictOf world msg (.error exc) =
      .buried ("unexpected error: " ++ exc.text) := by
  rw [verdictOf, if_neg (by rw [passing]; decide),
    if_neg (by rw [lasting]; decide)]

/-- Only a 404 is permanent. -/
theorem passing_of_judge {currency : String}
    {answer : Except PyException HttpResponse} {exc : PyException}
    (foreign : Foreign answer)
    (known : ∀ response, answer = .ok response → response.statusCode ≠ 404)
    (failed : judge world currency answer = .error exc) :
    exc.cls.isPermanent = false := by
  cases answer with
  | error raised =>
      rw [judge] at failed
      split at failed
      case isTrue =>
        cases failed
        rfl
      case isFalse =>
        cases failed
        exact (ForeignException.mk _ (foreign _ rfl)).not_permanent
  | ok response =>
      rw [judge, rateOf, if_neg (known response rfl)] at failed
      split at failed
      case isTrue =>
        cases failed
        rfl
      case isFalse =>
        split at failed
        case isTrue =>
          cases failed
          rfl
        case isFalse =>
          split at failed
          case h_1 raised _ =>
            cases failed
            exact raised.not_permanent
          case h_2 => cases failed

/-- A lookup that fails for good. -/
theorem decided_of_failed_lookup {outcomes : List Lookup} {last : Lookup}
    {exc : PyException} (resolved : Resolved world outcomes last)
    (genuine : last.Genuine)
    (failed : last.result world msg.event.currency = .error exc) :
    Decided world msg outcomes [] (verdictOf world msg (.error exc)) := by
  cases last with
  | cached rate => cases failed
  | answered answer =>
      have judged : judge world msg.event.currency answer = .error exc := failed
      by_cases unknown : ∃ response, answer = .ok response ∧
        response.statusCode = 404
      · obtain ⟨response, rfl, notFound⟩ := unknown
        rw [result_of_notFound world _ notFound] at failed
        cases failed
        exact Decided.unknownCurrency resolved notFound
      · have known : ∀ response, answer = .ok response →
            response.statusCode ≠ 404 :=
          fun response same notFound => unknown ⟨response, same, notFound⟩
        have passing := passing_of_judge genuine known judged
        have lasting : exc.cls.isTransient = false := by
          have final := resolved.final
          rw [← transient_judge_iff world msg.event.currency genuine, judged,
            transient_error_iff, Bool.not_eq_true] at final
          exact final
        rw [verdictOf_unexpected passing lasting]
        apply Decided.lookupFailed resolved
        · intro response same
          cases same
          exact known response rfl
        · exact failed

theorem decided_of_conversion {outcomes : List Lookup} {last : Lookup}
    {rate : Decimal} {exc : PyException}
    (resolved : Resolved world outcomes last)
    (found : last.result world msg.event.currency = .ok rate)
    (failed : amountUsdOf msg.event.amount (some rate) = .error exc) :
    Decided world msg outcomes [] (verdictOf world msg (.error exc)) := by
  rw [amountUsdOf] at failed
  split at failed
  case h_1 => cases failed
  case h_2 signal signalled =>
    cases failed
    have decided := Decided.conversionFailed resolved found signalled
    cases signal with
    | invalidOperation => exact decided
    | overflow => exact decided

theorem converted_of_amountUsdOf {amount rate : Decimal}
    {amounts : Decimal × Decimal}
    (converted : amountUsdOf amount (some rate) = .ok amounts) :
    ∃ amountUsd, convertToUsd amount rate = .ok amountUsd ∧
      amounts = (rate, amountUsd) := by
  rw [amountUsdOf] at converted
  split at converted
  case h_1 amountUsd quantized =>
    cases converted
    exact ⟨amountUsd, quantized, rfl⟩
  case h_2 => cases converted

/-- The insertions decide the fate of what was converted. -/
theorem decided_of_insertions {outcomes : List Lookup}
    {inserted : List Insertion} {ended : Except PyException (Option Bool)}
    (converted : Converted world msg outcomes)
    (foreign : ∀ insertion ∈ inserted, Foreign insertion)
    (concluded : Concluded Insertion.result Insertion.Refused
      world.settings.dbAttempts inserted ended)
    (outcome : Option Bool → Outcome) :
    Decided world msg outcomes inserted
      (verdictOf world msg (ended.map outcome)) := by
  cases concluded with
  | exhausted exhausts transient =>
      have verdict := verdictOf_transient world msg transient
      rw [Except.map, verdict]
      exact Decided.databaseUnavailable converted exhausts
  | @settled last settles =>
      cases last with
      | ok wasInserted => exact Decided.stored converted settles
      | error exc =>
          have own := foreign (.error exc) settles.mem
          obtain ⟨error, same, text, passing⟩ :=
            result_of_foreign (own exc rfl)
          have lasting : error.cls.isTransient = false := by
            have final := settles.final
            rw [← transient_result_iff own, same, transient_error_iff,
              Bool.not_eq_true] at final
            exact final
          rw [same, Except.map, Except.map, verdictOf_unexpected passing lasting,
            text]
          exact Decided.insertFailed converted settles

theorem plays_utcNow {outcome : Except PyException DateTime}
    (played : utcNow.Plays trace outcome)
    (undisturbed : AllUndisturbed trace) :
    ∃ now wall, outcome = .ok now ∧ trace = [⟨.utcNow, .ok wall⟩] := by
  obtain ⟨wall, rest, rfl, returned⟩ := undisturbed.of_perform_bind played rfl
  obtain ⟨rfl, same⟩ := Prog.plays_ret_iff.mp returned
  exact ⟨_, wall, same, rfl⟩

/-- The clock and the insert after the conversion. -/
theorem plays_storing {row : DateTime → ProcessedTransaction}
    {ended : Except PyException Outcome}
    (insertBackoff : BackoffDefined world.settings world.settings.dbAttempts)
    (played : Prog.Plays
      (utcNow.bind fun processedAt =>
        (insertRow world (row processedAt)).bind fun inserted =>
          if inserted = some true then .ret .processed else .ret .duplicate)
      trace ended)
    (undisturbed : AllUndisturbed trace) :
    ∃ inserted stored,
      (∀ late, lookupsOf (trace ++ late) = lookupsOf late) ∧
        (∀ late, insertionsOf (trace ++ late) =
          inserted ++ insertionsOf late) ∧
          (∀ insertion ∈ inserted, Foreign insertion) ∧
            Concluded Insertion.result Insertion.Refused
              world.settings.dbAttempts inserted stored ∧
              ended = stored.map fun wasInserted =>
                if wasInserted = some true then .processed else .duplicate := by
  rcases Prog.plays_bind_iff.mp played with
    ⟨now, clock, rest, rfl, read, inserting⟩ | ⟨exc, rfl, failed⟩
  · obtain ⟨_, wall, _, rfl⟩ := plays_utcNow read undisturbed.append_left
    have restUndisturbed := undisturbed.append_right
    rcases Prog.plays_bind_iff.mp inserting with
      ⟨wasInserted, inserts, nothing, rfl, stored, returned⟩ |
        ⟨exc, rfl, failed⟩
    · have same : nothing = [] ∧ ended =
          .ok (if wasInserted = some true then .processed else .duplicate) := by
        split at returned
        case isTrue new =>
          rw [if_pos new]
          exact Prog.plays_ret_iff.mp returned
        case isFalse old =>
          rw [if_neg old]
          exact Prog.plays_ret_iff.mp returned
      obtain ⟨rfl, rfl⟩ := same
      rw [List.append_nil] at restUndisturbed ⊢
      obtain ⟨inserted, shown, foreign, concluded⟩ :=
        plays_insertRow insertBackoff stored restUndisturbed
      exact ⟨inserted, .ok wasInserted, fun late => lookupsOf_insertRow stored late,
        fun late => shown late, foreign, concluded, rfl⟩
    · obtain ⟨inserted, shown, foreign, concluded⟩ :=
        plays_insertRow insertBackoff failed restUndisturbed
      exact ⟨inserted, .error exc, fun late => lookupsOf_insertRow failed late,
        fun late => shown late, foreign, concluded, rfl⟩
  · obtain ⟨_, _, impossible, _⟩ := plays_utcNow failed undisturbed
    cases impossible

/-- The lookups and insertions of `process` decide the verdict on it. -/
theorem plays_process {ended : Except PyException Outcome}
    (lookupBackoff : BackoffDefined world.settings world.settings.rateAttempts)
    (insertBackoff : BackoffDefined world.settings world.settings.dbAttempts)
    (played : (process world msg.event).Plays trace ended)
    (undisturbed : AllUndisturbed trace) :
    ∃ outcomes inserted,
      (∀ late, lookupsOf (trace ++ late) = outcomes ++ lookupsOf late) ∧
        (∀ late, insertionsOf (trace ++ late) =
          inserted ++ insertionsOf late) ∧
          Decided world msg outcomes inserted (verdictOf world msg ended) := by
  rw [process, Prog.monadBind_eq_bind, Prog.plays_bind_iff] at played
  rcases played with
    ⟨rate?, looking, rest, rfl, looked, continues⟩ | ⟨exc, rfl, failed⟩
  · obtain ⟨outcomes, lookupsShown, genuine, concluded⟩ :=
      plays_lookUpRate lookupBackoff looked undisturbed.append_left
    obtain ⟨last, rate, resolved, found, rfl⟩ := concluded.of_ok
    have restUndisturbed := undisturbed.append_right
    rcases Prog.plays_bind_iff.mp continues with
      ⟨amounts, none, inserting, rfl, converted, stored⟩ | ⟨exc, rfl, failed⟩
    · obtain ⟨rfl, same⟩ := Prog.plays_ofExcept_iff.mp converted
      obtain ⟨amountUsd, quantized, rfl⟩ := converted_of_amountUsdOf same.symm
      obtain ⟨inserted, _, none, shown, foreign, ending, rfl⟩ :=
        plays_storing insertBackoff stored restUndisturbed
      refine ⟨outcomes, inserted, ?_, ?_, decided_of_insertions
        ⟨last, rate, amountUsd, resolved, found, quantized⟩ foreign ending _⟩
      · intro late
        rw [List.nil_append, List.append_assoc, lookupsShown, none]
      · intro late
        rw [List.nil_append, List.append_assoc,
          insertionsOf_lookUpRate looked, shown]
    · obtain ⟨rfl, same⟩ := Prog.plays_ofExcept_iff.mp failed
      refine ⟨outcomes, [], ?_, ?_, decided_of_conversion resolved found same.symm⟩
      · intro late
        rw [List.append_nil, lookupsShown]
      · intro late
        rw [List.append_nil, insertionsOf_lookUpRate looked, List.nil_append]
  · obtain ⟨outcomes, lookupsShown, genuine, concluded⟩ :=
      plays_lookUpRate lookupBackoff failed undisturbed
    have decided : Decided world msg outcomes []
        (verdictOf world msg (.error exc)) := by
      rcases concluded.of_error with
        ⟨exhausts, transient⟩ | ⟨last, resolved, result⟩
      · rw [verdictOf_transient world msg transient]
        exact Decided.rateServiceUnavailable exhausts
      · exact decided_of_failed_lookup resolved
          (genuine last resolved.mem) result
    refine ⟨outcomes, [], lookupsShown, ?_, decided⟩
    intro late
    rw [insertionsOf_lookUpRate failed, List.nil_append]

/-- A history decides one verdict only. -/
theorem Decided.unique {outcomes : List Lookup} {inserted : List Insertion}
    {verdict other : Verdict}
    (decided : Decided world msg outcomes inserted verdict)
    (again : Decided world msg outcomes inserted other) :
    verdict = other := by
  -- Both verdicts rest on the same last lookup and the same last insertion.
  have oneLookup : ∀ first second, Resolved world outcomes first →
      Resolved world outcomes second → first = second :=
    fun _ _ => Settles.unique
  have noOutage : ∀ last, Resolved world outcomes last →
      ¬ Exhausts Lookup.Unavailable world.settings.rateAttempts outcomes :=
    fun _ => Settles.not_exhausts
  have oneInsertion : ∀ first second,
      Settles Insertion.Refused world.settings.dbAttempts inserted first →
        Settles Insertion.Refused world.settings.dbAttempts inserted second →
          first = second :=
    fun _ _ => Settles.unique
  have noRefusal : ∀ last,
      Settles Insertion.Refused world.settings.dbAttempts inserted last →
        ¬ Exhausts Insertion.Refused world.settings.dbAttempts inserted :=
    fun _ => Settles.not_exhausts
  have noneSettles : ∀ last,
      ¬ Settles Insertion.Refused world.settings.dbAttempts [] last :=
    fun _ => not_settles_nil
  have noneExhausts :
      ¬ Exhausts Insertion.Refused world.settings.dbAttempts [] :=
    not_exhausts_nil world.settings.dbAttempts_pos
  have unknown := fun response =>
    @result_of_notFound world msg.event.currency response
  cases decided <;> cases again <;> first | rfl | grind [Converted]

/-! ## What is written to Redis -/

/-- The end of a delivery, with what it writes to Redis. -/
structure Writes (trace : AppTrace) (commands : List Command) : Prop where
  lookups : ∀ late, lookupsOf (trace ++ late) = lookupsOf late
  insertions : ∀ late, insertionsOf (trace ++ late) = insertionsOf late
  redis : redisCommands trace = commands

theorem Writes.append {early late : AppTrace} {first second : List Command}
    (before : Writes early first) (after : Writes late second) :
    Writes (early ++ late) (first ++ second) where
  lookups := by
    intro later
    rw [List.append_assoc, before.lookups, after.lookups]
  insertions := by
    intro later
    rw [List.append_assoc, before.insertions, after.insertions]
  redis := by
    rw [redisCommands_append, before.redis, after.redis]

/-- Dead-lettering and one count. -/
theorem plays_bury {reason : String} {kind : FailureKind}
    {outcome : Except PyException Unit}
    (played : Prog.Plays
      ((deadLetter msg reason).bind fun _ => App.inc (.eventsFailed kind))
      trace outcome)
    (undisturbed : AllUndisturbed trace) :
    outcome = .ok () ∧
      Writes trace ((Verdict.buried reason).commands msg) := by
  rw [deadLetter, deadLetterFields, Prog.monadBind_eq_bind, Prog.bind_assoc]
    at played
  obtain ⟨_, rest, rfl, buried⟩ := undisturbed.of_perform_bind played rfl
  rw [Prog.monadBind_eq_bind, Prog.bind_assoc] at buried
  obtain ⟨_, rest, rfl, acked⟩ := undisturbed.tail.of_perform_bind buried rfl
  obtain ⟨_, rest, rfl, counted⟩ :=
    undisturbed.tail.tail.of_perform_bind acked rfl
  obtain ⟨_, same, rfl⟩ :=
    undisturbed.tail.tail.tail.of_perform counted rfl
  exact ⟨same, fun _ => rfl, fun _ => rfl, rfl⟩

theorem plays_handleFailure {exc : PyException}
    {outcome : Except PyException Unit}
    (played : (handleFailure world msg exc).Plays trace outcome)
    (undisturbed : AllUndisturbed trace) :
    outcome = .ok () ∧
      Writes trace ((verdictOf world msg (.error exc)).commands msg) := by
  rw [handleFailure] at played
  rw [verdictOf]
  split at played
  case isTrue permanent =>
    rw [if_pos permanent]
    exact plays_bury played undisturbed
  case isFalse passing =>
    rw [if_neg passing]
    split at played
    case isTrue transient =>
      rw [if_pos transient, outage]
      split at played
      case isTrue used =>
        rw [if_pos used]
        exact plays_bury played undisturbed
      case isFalse unused =>
        rw [if_neg unused]
        obtain ⟨_, same, rfl⟩ := undisturbed.of_perform played rfl
        exact ⟨same, fun _ => rfl, fun _ => rfl, rfl⟩
    case isFalse lasting =>
      rw [if_neg lasting]
      exact plays_bury played undisturbed

/-- The body of the `try`: processing, and an acknowledgement when it
succeeds. -/
theorem plays_processAndAck {outcome : Except PyException Unit}
    (played : (processAndAck world msg).Plays trace outcome)
    (undisturbed : AllUndisturbed trace) :
    ∃ ended early late, trace = early ++ late ∧
      (process world msg.event).Plays early ended ∧
        outcome = ended.map (fun _ => ()) ∧
          Writes late (match ended with
            | .ok _ => [.xack msg.msgId]
            | .error _ => []) := by
  rw [processAndAck, Prog.monadBind_eq_bind, Prog.plays_bind_iff] at played
  rcases played with
    ⟨ended, early, late, rfl, attempted, continues⟩ | ⟨_, rfl, failed⟩
  · obtain ⟨_, same, ran⟩ := Prog.plays_attempt_iff.mp attempted
    cases same
    have lateUndisturbed := undisturbed.append_right
    obtain ⟨_, rest, rfl, decided⟩ :=
      lateUndisturbed.of_perform_bind continues rfl
    cases ended with
    | ok value =>
        obtain ⟨_, counting, rfl, counted⟩ :=
          lateUndisturbed.tail.of_perform_bind decided rfl
        obtain ⟨_, same, rfl⟩ :=
          lateUndisturbed.tail.tail.of_perform counted rfl
        exact ⟨.ok value, early, _, rfl, ran, same, fun _ => rfl,
          fun _ => rfl, rfl⟩
    | error exc =>
        obtain ⟨rfl, same⟩ := Prog.plays_raise_iff.mp decided
        exact ⟨.error exc, early, _, rfl, ran, same, fun _ => rfl,
          fun _ => rfl, rfl⟩
  · obtain ⟨_, impossible, _⟩ := Prog.plays_attempt_iff.mp failed
    cases impossible

/-- Processing, and what is written for the way it ended. -/
theorem plays_processAndHandle {outcome : Except PyException Unit}
    (played : ((processAndAck world msg).tryExcept
      (handleFailure world msg)).Plays trace outcome)
    (undisturbed : AllUndisturbed trace) :
    outcome = .ok () ∧ ∃ ended early late, trace = early ++ late ∧
      (process world msg.event).Plays early ended ∧
        Writes late ((verdictOf world msg ended).commands msg) := by
  rcases Prog.plays_tryExcept_iff.mp played with
    ⟨value, rfl, ran⟩ | ⟨exc, body, handler, rfl, ran, handled⟩
  · obtain ⟨ended, early, late, rfl, processed, same, writes⟩ :=
      plays_processAndAck ran undisturbed
    cases ended with
    | ok result => exact ⟨rfl, .ok result, early, late, rfl, processed, writes⟩
    | error exc => cases same
  · obtain ⟨ended, early, late, rfl, processed, same, writes⟩ :=
      plays_processAndAck ran undisturbed.append_left
    obtain ⟨success, written⟩ :=
      plays_handleFailure handled undisturbed.append_right
    cases ended with
    | ok result => cases same
    | error raised =>
        cases same
        have all := writes.append written
        exact ⟨success, .error exc, early, late ++ handler,
          List.append_assoc early late handler, processed, all⟩

/-- The lookups and insertions that a delivery met decide, and nothing else
does, what `handle` writes to Redis. -/
theorem delivery_decided_by_history {outcome : Except PyException Unit}
    (lookupBackoff : BackoffDefined world.settings world.settings.rateAttempts)
    (insertBackoff : BackoffDefined world.settings world.settings.dbAttempts)
    (undisturbed : AllUndisturbed trace)
    (played : (handle world msg).Plays trace outcome) :
    outcome = .ok () ∧
      ∃ verdict,
        Decided world msg (lookupsOf trace) (insertionsOf trace) verdict ∧
          (∀ other,
            Decided world msg (lookupsOf trace) (insertionsOf trace) other →
              other = verdict) ∧
            redisCommands trace = verdict.commands msg := by
  obtain ⟨_, rest, rfl, handling⟩ := undisturbed.of_perform_bind played rfl
  have restUndisturbed := undisturbed.tail
  rcases Prog.plays_bind_iff.mp handling with
    ⟨_, body, final, rfl, tried, finishing⟩ | ⟨exc, rfl, failed⟩
  · obtain ⟨_, same, rfl⟩ :=
      restUndisturbed.append_right.of_perform finishing rfl
    have bodyUndisturbed := restUndisturbed.append_left
    obtain ⟨_, ended, early, late, rfl, processed, writes⟩ :=
      plays_processAndHandle tried bodyUndisturbed
    obtain ⟨outcomes, inserted, lookups, insertions, decided⟩ :=
      plays_process lookupBackoff insertBackoff processed
        bodyUndisturbed.append_left
    have quiet : redisCommands early = [] :=
      redisCommands_eq_nil fun answer member =>
        (processed.uses (works_process world msg.event) answer
          member).not_isRedis
    have written : redisCommands
        (early ++ late ++
          [⟨.observe (.finished msg.msgId), .ok ()⟩]) =
        (verdictOf world msg ended).commands msg := by
      rw [redisCommands_append, redisCommands_append, quiet, writes.redis,
        List.nil_append]
      exact List.append_nil _
    have looked : lookupsOf
        (early ++ late ++
          [⟨.observe (.finished msg.msgId), .ok ()⟩]) = outcomes := by
      rw [List.append_assoc, lookups, writes.lookups]
      exact List.append_nil outcomes
    have stored : insertionsOf
        (early ++ late ++
          [⟨.observe (.finished msg.msgId), .ok ()⟩]) = inserted := by
      rw [List.append_assoc, insertions, writes.insertions]
      exact List.append_nil inserted
    rw [← looked, ← stored] at decided
    exact ⟨same, verdictOf world msg ended, decided,
      fun other again => again.unique decided, written⟩
  · obtain ⟨impossible, _⟩ := plays_processAndHandle failed restUndisturbed
    cases impossible

end Verdicts

/-- No backoff overflows within a thousand attempts. -/
theorem backoffDefined_of_le {settings : Settings} {attempts : Nat}
    (few : attempts ≤ 1000) : BackoffDefined settings attempts := by
  intro attempt _ earlier
  have small : ¬ floatLimit ≤ 2 ^ (attempt - 1) := by
    unfold floatLimit
    rw [not_le]
    apply Nat.pow_lt_pow_right Nat.one_lt_two
    omega
  rw [PyFloat.scale, if_neg small]
  split
  · exact Option.some_ne_none _
  · split
    · exact Option.some_ne_none _
    · exact Option.some_ne_none _

/-- The coffee's first delivery. -/
def coffeeDelivery : StreamMessage where
  msgId := 0
  event := coffeeEvent
  deliveryCount := 1
  rawFields := [("schema_version", "1"), ("payload", "coffee at noon")]

/-- The rate service and the database are each unreachable once. -/
def unreachableOnce (before : AppTrace) :
    (command : Command) → Except PyException command.Reply
  | .httpGet _ =>
      if (asked before).isEmpty then
        .error { cls := .requestError, text := "timed out" }
      else .ok ⟨200, "", .ok (.finite false 11 (-1))⟩
  | .execute _ =>
      if (insertionsOf before).isEmpty then
        .error { cls := .osError, text := "connection refused" }
      else .ok true
  | .cacheGet _ => .ok none
  | .monotonic => .ok ClockReading.zero
  | .utcNow => .ok (0 : Int)
  | .random => .ok UnitDraw.zero
  | .xadd _ _ => .ok (0 : MsgId)
  | .xreadgroup _ => .ok []
  | .xautoclaim _ _ _ => .ok ⟨none, [], []⟩
  | .xpendingRange _ => .ok []
  | .select => .error { cls := .osError, text := "connection refused" }
  | .xgroupCreate => .ok ()
  | .xack _ => .ok ()
  | .xaddDlq _ _ => .ok ()
  | .commit => .ok ()
  | .probe => .ok ()
  | .cacheSet _ _ _ => .ok ()
  | .sleep _ => .ok ()
  | .inc _ => .ok ()
  | .observe _ => .ok ()

theorem undisturbed_unreachableOnce (before : AppTrace) (command : Command) :
    Undisturbed ⟨command, unreachableOnce before command⟩ := by
  cases command with
  | httpGet currency =>
      rw [unreachableOnce]
      split
      · exact undisturbed_error rfl rfl rfl
      · exact undisturbed_ok _
  | execute row =>
      rw [unreachableOnce]
      split
      · exact undisturbed_error rfl rfl rfl
      · exact undisturbed_ok _
  | select => exact undisturbed_error rfl rfl rfl
  | _ => exact undisturbed_ok _

/-- Two lookups and two insertions, and the coffee is acknowledged. -/
theorem delivery_decided_by_history_coffee :
    ∃ trace outcome,
      (handle (coffeeWorld {}) coffeeDelivery).Plays trace outcome ∧
        (lookupsOf trace).length = 2 ∧ (insertionsOf trace).length = 2 ∧
          (redisCommands trace).length = 1 ∧
            outcome = .ok () ∧
              ∃ verdict,
                Decided (coffeeWorld {}) coffeeDelivery (lookupsOf trace)
                    (insertionsOf trace) verdict ∧
                  (∀ other,
                    Decided (coffeeWorld {}) coffeeDelivery (lookupsOf trace)
                        (insertionsOf trace) other → other = verdict) ∧
                    redisCommands trace = verdict.commands coffeeDelivery := by
  let delivery := handle (coffeeWorld {}) coffeeDelivery
  have counted : (lookupsOf (delivery.traceWith unreachableOnce [])).length = 2 ∧
      (insertionsOf (delivery.traceWith unreachableOnce [])).length = 2 ∧
        (redisCommands (delivery.traceWith unreachableOnce [])).length = 1 := by
    decide +kernel
  have played := Prog.plays_traceWith unreachableOnce delivery []
  have undisturbed : AllUndisturbed (delivery.traceWith unreachableOnce []) :=
    Prog.all_traceWith undisturbed_unreachableOnce delivery []
  have few : (4 : Nat) ≤ 1000 := by decide
  exact ⟨_, _, played, counted.1, counted.2.1, counted.2.2,
    delivery_decided_by_history (backoffDefined_of_le few)
      (backoffDefined_of_le few) undisturbed played⟩

end TxnEvents
