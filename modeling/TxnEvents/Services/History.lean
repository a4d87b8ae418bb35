import TxnEvents.Services.Attempts
import TxnEvents.Services.Work

/-!
# The lookups and insertions of a trace

What the two phases of processing met, read off a trace: each lookup and each
insertion with its outcome, oldest first.
-/

namespace TxnEvents

open Effects Arith Python App

/-- A lookup: an unexpired rate of the cache, or what the rate service
answered. -/
inductive Lookup
  | cached (rate : Decimal)
  | answered (answer : Except PyException HttpResponse)

namespace Lookup

/-- A network error or a 5xx. -/
def Unavailable : Lookup → Prop
  | cached _ => False
  | answered (.error exc) => exc.cls = .requestError
  | answered (.ok response) => 500 ≤ response.statusCode

/-- The errors of the service are those of the libraries. -/
def Genuine : Lookup → Prop
  | cached _ => True
  | answered answer => Foreign answer

def result (world : World) (currency : String) :
    Lookup → Except PyException Decimal
  | cached rate => .ok rate
  | answered answer => judge world currency answer

end Lookup

/-- The lookups of a trace, oldest first. -/
def lookupsOf : AppTrace → List Lookup
  | ⟨.cacheGet _, .ok (some (rate, expiresAt))⟩ :: ⟨.monotonic, .ok now⟩ ::
      rest =>
      if now.value < expiresAt then .cached rate :: lookupsOf rest
      else lookupsOf rest
  | ⟨.httpGet _, answer⟩ :: rest => .answered answer :: lookupsOf rest
  | _ :: rest => lookupsOf rest
  | [] => []

/-- Whether a row was inserted, or the error of the statement or its
commit. -/
abbrev Insertion : Type := Except PyException Bool

/-- An OSError, or a database error with an SQLSTATE of class 08, 40, 53 or
57. -/
def Insertion.Refused : Insertion → Prop
  | .ok _ => False
  | .error exc =>
      exc.cls = .osError ∨
        exc.cls.isDbException = true ∧ ∃ sqlstate,
          exc.foundSqlstate = some sqlstate ∧
            String.ofList (sqlstate.toList.take 2) ∈ ["08", "40", "53", "57"]

/-- The insertions of a trace, oldest first. -/
def insertionsOf : AppTrace → List Insertion
  | ⟨.execute _, .ok inserted⟩ :: ⟨.commit, ended⟩ :: rest =>
      ended.map (fun _ => inserted) :: insertionsOf rest
  | ⟨.execute _, .error exc⟩ :: rest => .error exc :: insertionsOf rest
  | _ :: rest => insertionsOf rest
  | [] => []

/-! ## What traces show -/

def Command.isLookup : Command → Bool
  | .cacheGet _ => true
  | .httpGet _ => true
  | _ => false

def Command.isExecute : Command → Bool
  | .execute _ => true
  | _ => false

theorem lookupsOf_append {early : AppTrace}
    (others : ∀ answer ∈ early, answer.command.isLookup = false)
    (late : AppTrace) : lookupsOf (early ++ late) = lookupsOf late := by
  induction early with
  | nil => rfl
  | cons answer rest inductionHypothesis =>
      have here := others answer (List.mem_cons_self ..)
      have later := inductionHypothesis fun other member =>
        others other (List.mem_cons_of_mem answer member)
      rw [List.cons_append, ← later]
      obtain ⟨command, reply⟩ := answer
      cases command <;> first | rfl | cases here

theorem insertionsOf_append {early : AppTrace}
    (others : ∀ answer ∈ early, answer.command.isExecute = false)
    (late : AppTrace) : insertionsOf (early ++ late) = insertionsOf late := by
  induction early with
  | nil => rfl
  | cons answer rest inductionHypothesis =>
      have here := others answer (List.mem_cons_self ..)
      have later := inductionHypothesis fun other member =>
        others other (List.mem_cons_of_mem answer member)
      rw [List.cons_append, ← later]
      obtain ⟨command, reply⟩ := answer
      cases command <;> first | rfl | cases here

/-! ## The attempts of the two phases -/

section Phases

variable {world : World} {currency : String} {trace : AppTrace}

/-- A response is transient trouble when it is a 5xx. -/
theorem transient_rateOf_iff {response : HttpResponse} :
    Transient (rateOf world currency response) ↔
      500 ≤ response.statusCode := by
  unfold rateOf
  split
  case isTrue unknown =>
    rw [transient_error_iff, unknown]
    simp [TxnEvents.unknownCurrency, ExceptionClass.isTransient]
  case isFalse =>
    split
    case isTrue unavailable =>
      simp [rateServiceUnavailable, ExceptionClass.isTransient, unavailable]
    case isFalse available =>
      have calm : ¬ 500 ≤ response.statusCode := available
      split
      case isTrue => simp [ExceptionClass.isTransient, calm]
      case isFalse =>
        split
        case h_1 raised _ =>
          simp [raised.not_transient, calm]
        case h_2 => simp [calm]

variable (world currency) in
theorem transient_judge_iff {answer : Except PyException HttpResponse}
    (foreign : Foreign answer) :
    Transient (judge world currency answer) ↔
      (Lookup.answered answer).Unavailable := by
  cases answer with
  | ok response => exact transient_rateOf_iff
  | error exc =>
      rw [judge, Lookup.Unavailable]
      split
      case isTrue unreachable =>
        simp [rateServiceUnavailable, ExceptionClass.isTransient, unreachable]
      case isFalse other =>
        have lasting := (ForeignException.mk exc (foreign exc rfl)).not_transient
        rw [transient_error_iff]
        simp only at lasting
        simp [lasting, other]

theorem result_of_notFound (world : World) (currency : String)
    {response : HttpResponse} (notFound : response.statusCode = 404) :
    Lookup.result world currency (.answered (.ok response)) =
      .error (unknownCurrency world currency) := by
  rw [Lookup.result, judge, rateOf, if_pos notFound]

/-- The trace of one lookup. -/
inductive ShowsLookup (world : World) (currency : String) :
    AppTrace → Lookup → Prop
  | hit {rate : Decimal} {trace : AppTrace} :
      Hits currency rate trace →
        ShowsLookup world currency trace (.cached rate)
  | failed {check : AppTrace} {answer : Except PyException HttpResponse} :
      Misses currency check → Foreign answer →
        ShowsLookup world currency
          (check ++ [⟨.httpGet currency, answer⟩]) (.answered answer)
  | kept {check rest : AppTrace} {answer : Except PyException HttpResponse}
      {rate : Decimal} :
      Misses currency check → Foreign answer →
        Stores world currency rate rest →
          ShowsLookup world currency
            (check ++ ⟨.httpGet currency, answer⟩ :: rest) (.answered answer)

theorem ShowsLookup.genuine {lookup : Lookup}
    (shows : ShowsLookup world currency trace lookup) : lookup.Genuine := by
  cases shows with
  | hit => exact trivial
  | failed _ foreign => exact foreign
  | kept _ foreign => exact foreign

theorem understood_getRate :
    Understood (getRate world currency) (ShowsLookup world currency)
      (Lookup.result world currency) Lookup.Unavailable := by
  intro trace ended played undisturbed
  rcases plays_getRate played undisturbed.localAnswers with
    ⟨rate, rfl, hits⟩ | ⟨check, answer, rest, rfl, misses, judged, ending⟩
  · refine ⟨.cached rate, ShowsLookup.hit hits, rfl, ?_⟩
    simp [Lookup.Unavailable]
  · have foreign : Foreign answer :=
      (undisturbed ⟨.httpGet currency, answer⟩ (by simp)).foreign
    have iff : Transient ended ↔ (Lookup.answered answer).Unavailable := by
      rw [judged]
      exact transient_judge_iff world currency foreign
    refine ⟨.answered answer, ?_, judged.symm, iff⟩
    rcases ending with ⟨_, _, rfl⟩ | ⟨rate, _, stores⟩
    · exact ShowsLookup.failed misses foreign
    · exact ShowsLookup.kept misses foreign stores

theorem lookupsOf_showsLookup {lookup : Lookup}
    (shows : ShowsLookup world currency trace lookup) (late : AppTrace) :
    lookupsOf (trace ++ late) = [lookup] ++ lookupsOf late := by
  cases shows with
  | hit hits =>
      cases hits with
      | fresh unexpired => simp [lookupsOf, unexpired]
  | failed misses _ =>
      cases misses with
      | absent => simp [lookupsOf]
      | expired expired => simp [lookupsOf, not_lt.mpr expired]
  | kept misses _ stores =>
      cases stores
      cases misses with
      | absent => simp [lookupsOf]
      | expired expired => simp [lookupsOf, not_lt.mpr expired]

theorem lookupsOf_pauses {operation : RetriedOperation}
    (pauses : Pauses operation trace) (late : AppTrace) :
    lookupsOf (trace ++ late) = lookupsOf late := by
  cases pauses
  rfl

/-- What the driver's exception becomes. -/
def Insertion.result : Insertion → Except PyException Bool
  | .ok inserted => .ok inserted
  | .error exc =>
      if exc.cls.isDbException = true then
        .error ((classifyDbError exc).getD exc)
      else .error exc

theorem transient_classify_iff {exc : PyException}
    (lasting : exc.cls.isTransient = false) :
    ((classifyDbError exc).getD exc).cls.isTransient = true ↔
      exc.cls = .osError ∨ ∃ sqlstate, exc.foundSqlstate = some sqlstate ∧
        String.ofList (sqlstate.toList.take 2) ∈ ["08", "40", "53", "57"] := by
  unfold classifyDbError
  split
  case isTrue os => simp [databaseUnavailable, ExceptionClass.isTransient, os]
  case isFalse notOs =>
    split
    case h_1 missing => simp [lasting, notOs, missing]
    case h_2 sqlstate found =>
      rw [transientSqlstateClasses]
      split
      case isTrue member =>
        simp only [databaseUnavailable, Option.getD_some,
          ExceptionClass.isTransient, true_iff]
        exact Or.inr ⟨sqlstate, found, member⟩
      case isFalse absent =>
        simp only [Option.getD_none, lasting, found, notOs, false_or,
          Bool.false_eq_true, false_iff]
        rintro ⟨_, same, member⟩
        cases same
        exact absent member

theorem transient_result_iff {insertion : Insertion}
    (foreign : Foreign insertion) :
    Transient insertion.result ↔ insertion.Refused := by
  cases insertion with
  | ok inserted => simp [Insertion.result, Insertion.Refused]
  | error exc =>
      have lasting : exc.cls.isTransient = false :=
        (ForeignException.mk exc (foreign exc rfl)).not_transient
      rw [Insertion.result, Insertion.Refused]
      split
      case isTrue database =>
        rw [transient_error_iff, transient_classify_iff lasting]
        simp [database]
      case isFalse other =>
        have notOs : exc.cls ≠ .osError := by
          intro os
          rw [os] at other
          exact other rfl
        simp [lasting, other, notOs]

/-- Classifying keeps the text and makes no error permanent. -/
theorem classify_keeps {exc : PyException}
    (own : exc.cls.isPermanent = false) :
    ((classifyDbError exc).getD exc).text = exc.text ∧
      ((classifyDbError exc).getD exc).cls.isPermanent = false := by
  unfold classifyDbError
  split
  case isTrue => exact ⟨rfl, rfl⟩
  case isFalse =>
    split
    case h_1 => exact ⟨rfl, own⟩
    case h_2 =>
      split
      · exact ⟨rfl, rfl⟩
      · exact ⟨rfl, own⟩

theorem result_of_foreign {exc : PyException} (foreign : exc.cls.isOwn = false) :
    ∃ error, Insertion.result (.error exc) = .error error ∧
      error.text = exc.text ∧ error.cls.isPermanent = false := by
  have own : exc.cls.isPermanent = false :=
    (ForeignException.mk exc foreign).not_permanent
  rw [Insertion.result]
  split
  case isTrue => exact ⟨_, rfl, classify_keeps own⟩
  case isFalse => exact ⟨exc, rfl, rfl, own⟩

/-- The trace of one insert. -/
inductive ShowsInsertion (row : ProcessedTransaction) :
    AppTrace → Insertion → Prop
  | rejected {exc : PyException} : exc.cls.isOwn = false →
      ShowsInsertion row [⟨.execute row, .error exc⟩] (.error exc)
  | uncommitted (inserted : Bool) {exc : PyException} :
      exc.cls.isOwn = false →
        ShowsInsertion row
          [⟨.execute row, .ok inserted⟩, ⟨.commit, .error exc⟩] (.error exc)
  | committed (inserted : Bool) :
      ShowsInsertion row
        [⟨.execute row, .ok inserted⟩, ⟨.commit, .ok ()⟩,
          ⟨.observe (.insertReturned row.id inserted), .ok ()⟩]
        (.ok inserted)

/-- The statement and its commit. -/
theorem plays_insert {row : ProcessedTransaction}
    {outcome : Except PyException Bool}
    (played : Prog.Plays
      ((execute row).bind fun inserted =>
        commit.bind fun _ => .ret inserted) trace outcome)
    (undisturbed : AllUndisturbed trace) :
    (∃ inserted, outcome = .ok inserted ∧
      trace = [⟨.execute row, .ok inserted⟩, ⟨.commit, .ok ()⟩]) ∨
    ∃ exc, outcome = .error exc ∧ ShowsInsertion row trace (.error exc) := by
  rcases Prog.plays_bind_iff.mp played with
    ⟨inserted, early, late, rfl, executed, committing⟩ | ⟨exc, rfl, failed⟩
  · obtain rfl := Prog.plays_perform_iff.mp executed
    rcases Prog.plays_bind_iff.mp committing with
      ⟨_, committed, rest, rfl, done, returned⟩ | ⟨exc, rfl, failed⟩
    · obtain rfl := Prog.plays_perform_iff.mp done
      obtain ⟨rfl, same⟩ := Prog.plays_ret_iff.mp returned
      exact Or.inl ⟨inserted, same, rfl⟩
    · obtain rfl := Prog.plays_perform_iff.mp failed
      have foreign : exc.cls.isOwn = false :=
        (undisturbed ⟨.commit, .error exc⟩ (by simp)).foreign exc rfl
      exact Or.inr ⟨exc, rfl, ShowsInsertion.uncommitted inserted foreign⟩
  · obtain rfl := Prog.plays_perform_iff.mp failed
    have foreign : exc.cls.isOwn = false :=
      (undisturbed ⟨.execute row, .error exc⟩ (by simp)).foreign exc rfl
    exact Or.inr ⟨exc, rfl, ShowsInsertion.rejected foreign⟩

theorem ShowsInsertion.foreign {row : ProcessedTransaction}
    {insertion : Insertion} (shows : ShowsInsertion row trace insertion) :
    Foreign insertion := by
  intro error same
  cases shows with
  | rejected foreign =>
      cases same
      exact foreign
  | uncommitted _ foreign =>
      cases same
      exact foreign
  | committed => cases same

theorem plays_reraiseClassified {exc : PyException}
    {outcome : Except PyException Bool}
    (played : (reraiseClassified exc : App Bool).Plays trace outcome) :
    trace = [] ∧ outcome = Insertion.result (.error exc) := by
  rw [reraiseClassified] at played
  rw [Insertion.result]
  split at played
  case isTrue database =>
    rw [if_pos database]
    exact Prog.plays_raise_iff.mp played
  case isFalse other =>
    rw [if_neg other]
    exact Prog.plays_raise_iff.mp played

theorem understood_insertIgnoreDuplicate (row : ProcessedTransaction) :
    Understood (insertIgnoreDuplicate row) (ShowsInsertion row)
      Insertion.result Insertion.Refused := by
  intro trace ended played undisturbed
  suffices shown : ∃ insertion, ShowsInsertion row trace insertion ∧
      insertion.result = ended by
    obtain ⟨insertion, shows, same⟩ := shown
    rw [← same]
    exact ⟨insertion, shows, rfl, transient_result_iff shows.foreign⟩
  rw [insertIgnoreDuplicate, Prog.monadBind_eq_bind, Prog.plays_bind_iff]
    at played
  rcases played with
    ⟨inserted, early, late, rfl, tried, noted⟩ | ⟨error, rfl, failed⟩
  · rcases Prog.plays_tryExcept_iff.mp tried with
      ⟨value, same, ran⟩ | ⟨exc, first, rest, rfl, ran, raised⟩
    · cases same
      rcases plays_insert ran undisturbed.append_left with
        ⟨_, same, rfl⟩ | ⟨_, impossible, _⟩
      · cases same
        rcases Prog.plays_bind_iff.mp noted with
          ⟨_, observed, rest, rfl, marked, returned⟩ | ⟨error, _, failed⟩
        · obtain ⟨_, _, rfl⟩ :=
            undisturbed.append_right.append_left.of_perform marked rfl
          obtain ⟨rfl, rfl⟩ := Prog.plays_ret_iff.mp returned
          exact ⟨.ok inserted, ShowsInsertion.committed inserted, rfl⟩
        · obtain ⟨_, impossible, _⟩ :=
            undisturbed.append_right.of_perform failed rfl
          cases impossible
      · cases impossible
    · obtain ⟨_, impossible⟩ := plays_reraiseClassified raised
      rw [Insertion.result] at impossible
      split at impossible
      · cases impossible
      · cases impossible
  · rcases Prog.plays_tryExcept_iff.mp failed with
      ⟨_, impossible, _⟩ | ⟨exc, early, late, rfl, ran, raised⟩
    · cases impossible
    · rcases plays_insert ran undisturbed.append_left with
        ⟨_, impossible, _⟩ | ⟨_, same, shows⟩
      · cases impossible
      · cases same
        obtain ⟨rfl, same⟩ := plays_reraiseClassified raised
        rw [List.append_nil]
        exact ⟨.error exc, shows, same.symm⟩

theorem insertionsOf_showsInsertion {row : ProcessedTransaction}
    {insertion : Insertion} (shows : ShowsInsertion row trace insertion)
    (late : AppTrace) :
    insertionsOf (trace ++ late) = [insertion] ++ insertionsOf late := by
  cases shows with
  | rejected => rfl
  | uncommitted => rfl
  | committed => rfl

theorem insertionsOf_pauses {operation : RetriedOperation}
    (pauses : Pauses operation trace) (late : AppTrace) :
    insertionsOf (trace ++ late) = insertionsOf late := by
  cases pauses
  rfl

/-- The lookups of the first phase. -/
theorem plays_lookUpRate {event : TransactionEvent}
    {outcome : Except PyException (Option Decimal)}
    (defined : BackoffDefined world.settings world.settings.rateAttempts)
    (played : (lookUpRate world event).Plays trace outcome)
    (undisturbed : AllUndisturbed trace) :
    ∃ outcomes,
      (∀ late, lookupsOf (trace ++ late) = outcomes ++ lookupsOf late) ∧
        (∀ lookup ∈ outcomes, lookup.Genuine) ∧
          Concluded (Lookup.result world event.currency) Lookup.Unavailable
            world.settings.rateAttempts outcomes outcome := by
  obtain ⟨outcomes, repeats, concluded⟩ :=
    plays_retryAsync understood_getRate defined
      world.settings.rateAttempts_pos played undisturbed
  refine ⟨outcomes, ?_, ?_, concluded⟩
  · intro late
    have shown := repeats.view (fun _ _ => lookupsOf_showsLookup)
      (fun _ => lookupsOf_pauses) late
    rw [shown, List.flatMap_singleton']
  · intro lookup member
    obtain ⟨attempt, shows⟩ := repeats.shown lookup member
    exact shows.genuine

/-- The first phase inserts nothing. -/
theorem insertionsOf_lookUpRate {event : TransactionEvent}
    {outcome : Except PyException (Option Decimal)}
    (played : (lookUpRate world event).Plays trace outcome)
    (late : AppTrace) :
    insertionsOf (trace ++ late) = insertionsOf late := by
  have uses : (lookUpRate world event).Uses fun command : Command =>
      command.isExecute = false := by
    apply uses_retryAsync
    · exact rfl
    · exact fun _ => rfl
    · apply (looksUp_getRate world event.currency).mono
      intro command looksUp
      cases command <;> first | rfl | exact looksUp.elim
    · intro attempt exc delay
      apply Prog.Uses.perform
      exact rfl
  exact insertionsOf_append (played.uses uses) late

/-- The insertions of the second phase. -/
theorem plays_insertRow {row : ProcessedTransaction}
    {outcome : Except PyException (Option Bool)}
    (defined : BackoffDefined world.settings world.settings.dbAttempts)
    (played : (insertRow world row).Plays trace outcome)
    (undisturbed : AllUndisturbed trace) :
    ∃ inserted,
      (∀ late, insertionsOf (trace ++ late) = inserted ++ insertionsOf late) ∧
        (∀ insertion ∈ inserted, Foreign insertion) ∧
          Concluded Insertion.result Insertion.Refused
            world.settings.dbAttempts inserted outcome := by
  obtain ⟨inserted, repeats, concluded⟩ :=
    plays_retryAsync (understood_insertIgnoreDuplicate row) defined
      world.settings.dbAttempts_pos played undisturbed
  refine ⟨inserted, ?_, ?_, concluded⟩
  · intro late
    have shown := repeats.view (fun _ _ => insertionsOf_showsInsertion)
      (fun _ => insertionsOf_pauses) late
    rw [shown, List.flatMap_singleton']
  · intro insertion member
    obtain ⟨attempt, shows⟩ := repeats.shown insertion member
    exact shows.foreign

/-- The second phase looks nothing up. -/
theorem lookupsOf_insertRow {row : ProcessedTransaction}
    {outcome : Except PyException (Option Bool)}
    (played : (insertRow world row).Plays trace outcome) (late : AppTrace) :
    lookupsOf (trace ++ late) = lookupsOf late := by
  have uses : (insertRow world row).Uses fun command : Command =>
      command.isLookup = false := by
    apply uses_retryAsync
    · exact rfl
    · exact fun _ => rfl
    · exact uses_insertIgnoreDuplicate rfl rfl fun _ => rfl
    · intro attempt exc delay
      apply Prog.Uses.perform
      exact rfl
  exact lookupsOf_append (played.uses uses) late

end Phases

end TxnEvents
