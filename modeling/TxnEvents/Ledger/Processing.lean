import TxnEvents.Delivery.Safety

/-!
# Processing keeps the invariant

`process` is right under the safety discipline: what it inserts has a source,
what it caches was answered, a value means that the row is there, and no
permanent error claims that the deliveries are used up.
-/

namespace TxnEvents

open Effects Arith Python App

/-- Two texts that start differently are different. -/
theorem append_ne_of_head_ne {start text other : String}
    (different : start.toList.head? ≠ other.toList.head?)
    (nonempty : start.toList ≠ []) : start ++ text ≠ other := by
  intro same
  apply different
  rw [← same, String.toList_append, List.head?_append_of_ne_nil _ nonempty]

theorem honest_of_not_permanent {error : PyException}
    (temporary : error.cls.isPermanent = false) : Honest error := by
  intro permanent
  rw [temporary] at permanent
  cases permanent

theorem honest_of_not_own {error : PyException}
    (foreign : error.cls.isOwn = false) : Honest error :=
  honest_of_not_permanent (ForeignException.not_permanent ⟨error, foreign⟩)

theorem honest_unknownCurrency (world : World) (currency : String) :
    Honest (unknownCurrency world currency) := by
  intro _
  exact append_ne_of_head_ne (by decide) (by decide)

/-! ## The rate lookup -/

theorem rateOf_error_honest {world : World} {currency : String}
    {response : HttpResponse} {error : PyException}
    (failed : rateOf world currency response = .error error) :
    Honest error := by
  unfold rateOf at failed
  split at failed
  · cases failed
    exact honest_unknownCurrency world currency
  · split at failed
    · cases failed
      exact honest_of_not_permanent rfl
    · split at failed
      · cases failed
        exact honest_of_not_permanent rfl
      · split at failed
        case h_1 raised _ =>
          cases failed
          exact honest_of_not_permanent raised.not_permanent
        case h_2 => cases failed

theorem rate?_of_rateOf {world : World} {currency : String}
    {response : HttpResponse} {rate : Decimal}
    (found : rateOf world currency response = .ok rate) :
    (HttpOutcome.answered response).rate? = some rate := by
  unfold rateOf at found
  split at found
  · cases found
  · split at found
    · cases found
    · split at found
      · cases found
      case isFalse success =>
        split at found
        · cases found
        case h_2 answered =>
          cases found
          simp only [HttpOutcome.rate?, answered, Except.toOption]
          rw [if_pos (not_not.mp success)]

/-- A usable response is recorded as an answer. -/
theorem answered_of_httpGet {world : World} {state after : State}
    {task : Tid} {currency : String} {choice : Choice}
    {response : HttpResponse} {rate : Decimal}
    (taken : exec world state task (.httpGet currency) choice =
      some (.ok response, after))
    (found : rateOf world currency response = .ok rate) :
    Source.Answered after currency rate := by
  simp only [exec, httpGet] at taken
  cases met : choice.http with
  | raised error =>
      rw [met] at taken
      cases taken
  | answered answer =>
      rw [met] at taken
      simp only [Option.some.injEq, Prod.mk.injEq, Except.ok.injEq] at taken
      obtain ⟨rfl, reached⟩ := taken
      rw [rate?_of_rateOf found] at reached
      rw [← reached]
      exact ⟨task, List.mem_cons_self⟩

section Lookup

variable {spare : Prop} {world : World} {task : Tid} {state : State}

theorem Source.Answered.lasting (currency : String) (rate : Decimal) :
    Lasting fun state => Source.Answered state currency rate :=
  fun _ _ grows answered => answered.grow grows

/-- A rate that is returned was answered. -/
def RatePost (currency : String) :
    Except PyException Decimal → State → Prop
  | .ok rate, state => Source.Answered state currency rate
  | .error error, _ => Honest error

def CachedPost (currency : String) :
    Except PyException (Option Decimal) → State → Prop
  | .ok (some rate), state => Source.Answered state currency rate
  | .ok none, _ => True
  | .error error, _ => Honest error

theorem wp_cached (currency : String) :
    (safety spare world).wp task (cached currency) (CachedPost currency) state := by
  have entryPost : (safety spare world).wp task (cacheGet currency)
      (fun outcome after =>
        match outcome with
        | .ok (some (rate, _)) => Source.Answered after currency rate
        | .ok none => True
        | .error error => Honest error)
      state := by
    refine wp_effect trivial ?_
    intro before choice reply after safe taken
    cases taken
    cases found : (before.memory task.process).cache currency with
    | none => exact trivial
    | some entry =>
        exact safe.cache task.process currency entry.1 entry.2 found
  refine Discipline.wp_seq entryPost ?_ ?_
  · intro entry after reached
    match entry, reached with
    | none, _ => exact trivial
    | some (rate, expiresAt), answered =>
        have clock : (safety spare world).wp task App.monotonic
            (Calm fun after => Source.Answered after currency rate) after :=
          wp_free trivial (Source.Answered.lasting currency rate) answered
        refine Discipline.wp_seq clock ?_ ?_
        · intro now later kept
          split
          · exact trivial
          · exact kept
        · intro error later calm
          exact honest_of_not_own calm.2
  · intro error after honest
    exact honest

theorem wp_store {currency : String} {rate : Decimal}
    (answered : Source.Answered state currency rate) :
    (safety spare world).wp task (store world currency rate)
      (Calm fun after => Source.Answered after currency rate) state := by
  have lasting := Source.Answered.lasting currency rate
  have clock : (safety spare world).wp task App.monotonic
      (Calm fun after => Source.Answered after currency rate) state :=
    wp_free trivial lasting answered
  refine Discipline.wp_seq clock ?_ ?_
  · intro now after held
    refine wp_ask_calm lasting.stable held ?_
    intro before choice reply later safe kept _ taken
    have owes : Owes spare world before task
        (.cacheSet currency rate
          (PyFloat.after now world.settings.rateCacheTtlS)) :=
      ⟨fun _ => trivial, kept, trivial⟩
    exact ⟨safety_guarantee safe owes taken,
      lasting before later (exec_grows taken) kept⟩
  · intro error after calm
    exact calm

/-- The response of the rate service, with its failures translated. -/
def ResponsePost (world : World) (currency : String) :
    Except PyException HttpResponse → State → Prop
  | .ok response, state =>
      ∀ rate, rateOf world currency response = .ok rate →
        Source.Answered state currency rate
  | .error error, _ => Honest error

theorem wp_httpGet (currency : String) :
    (safety spare world).wp task
      ((App.httpGet currency).tryExcept fun exc =>
        if exc.cls = .requestError then
          .raise (rateServiceUnavailable
            ("rate-service unreachable: " ++ exc.text))
        else .raise exc)
      (ResponsePost world currency) state := by
  have asked : (safety spare world).wp task (App.httpGet currency)
      (ResponsePost world currency) state := by
    refine wp_effect trivial ?_
    intro before choice reply after _ taken
    cases reply with
    | ok response =>
        intro rate found
        exact answered_of_httpGet taken found
    | error error => exact honest_of_not_own (error_foreign taken)
  refine Discipline.wp_tryExcept asked ?_ ?_
  · intro response after answered
    exact answered
  · intro error after honest
    split
    · exact honest_of_not_permanent rfl
    · exact honest

theorem wp_getRate (currency : String) :
    (safety spare world).wp task (getRate world currency) (RatePost currency)
      state := by
  refine Discipline.wp_seq (wp_cached currency) ?_ ?_
  · intro hit after reached
    match hit, reached with
    | some rate, answered => exact answered
    | none, _ =>
        refine Discipline.wp_seq (wp_httpGet currency) ?_ ?_
        · intro response later usable
          cases found : rateOf world currency response with
          | error error => exact rateOf_error_honest found
          | ok rate =>
              change (safety spare world).wp task
                ((store world currency rate).bind fun _ => .ret rate) _ later
              refine Discipline.wp_seq (wp_store (usable rate found)) ?_ ?_
              · intro _ last kept
                exact kept
              · intro error last calm
                exact honest_of_not_own calm.2
        · intro error later honest
          exact honest
  · intro error after honest
    exact honest

end Lookup

/-! ## The insert -/

def InTable (id : String) (state : State) : Prop :=
  id ∈ state.db.table.map StoredTransaction.id

instance (id : String) (state : State) : Decidable (InTable id state) :=
  inferInstanceAs (Decidable (_ ∈ _))

theorem InTable.lasting (id : String) : Lasting (InTable id) :=
  fun _ _ grows stored => grows.mem_table stored

/-- The row is that of a valid source. -/
def Supported (world : World) (row : ProcessedTransaction) (state : State) :
    Prop :=
  ∃ source : Source, source.Valid world state ∧ row = source.row

theorem Supported.lasting (world : World) (row : ProcessedTransaction) :
    Lasting (Supported world row) := by
  intro before after grows supported
  obtain ⟨source, valid, same⟩ := supported
  exact ⟨source, valid.grow grows, same⟩

/-- What the statement leaves for the commit: an open row, or a row that was
there before. -/
def Executed (task : Tid) (id : String) (inserted : Bool) (state : State) :
    Prop :=
  if inserted = true then
    ∃ entry, state.openRow task = some entry ∧ entry.row.id = id
  else InTable id state

/-- What the commit leaves for the return. -/
def Inserted (task : Tid) (id : String) (inserted : Bool) (state : State) :
    Prop :=
  InTable id state ∧ (inserted = true → ⟨task, id⟩ ∈ state.db.receipts)

section Insert

variable {spare : Prop} {world : World} {task : Tid} {state : State}

theorem Executed.stable (id : String) (inserted : Bool) :
    (safety spare world).Stable task (Executed task id inserted) := by
  intro before after others _ executed
  cases inserted with
  | true =>
      obtain ⟨entry, found, same⟩ := executed
      exact ⟨entry, others.openRow.trans found, same⟩
  | false => exact others.toGrows.mem_table executed

theorem Inserted.stable (id : String) (inserted : Bool) :
    (safety spare world).Stable task (Inserted task id inserted) := by
  intro before after others _ done
  refine ⟨others.toGrows.mem_table done.1, ?_⟩
  intro returned
  exact (others.receipts id).mpr (done.2 returned)

theorem openRow_cons_rollback (state : State) (task : Tid)
    (stored : StoredTransaction) :
    State.openRow
        { state with
          db.uncommitted :=
            ⟨task, stored⟩ :: (state.rollback task).db.uncommitted } task =
      some ⟨task, stored⟩ := by
  simp [State.openRow]

theorem wp_execute {row : ProcessedTransaction}
    (supported : Supported world row state) :
    (safety spare world).wp task (execute row)
      (fun outcome after =>
        match outcome with
        | .ok inserted => Executed task row.id inserted after
        | .error error => error.cls.isOwn = false)
      state := by
  refine wp_paying (Supported.lasting world row).stable supported ?_ ?_
  · intro before choice _ held _
    exact ⟨fun _ => trivial, held, trivial⟩
  · intro before choice reply after _ held taken
    rcases exec_execute taken with
      ⟨rfl, stored, accepted, _, _, reached⟩ |
        ⟨rfl, stored, accepted, present, reached⟩ | ⟨⟨error, rfl⟩, _⟩
    · have same := (ProcessedTransaction.storedAs_of_toColumns accepted).id
      rw [reached]
      exact ⟨_, openRow_cons_rollback before task stored, same⟩
    · have same := (ProcessedTransaction.storedAs_of_toColumns accepted).id
      rw [same] at present
      rw [reached]
      exact present
    · exact error_foreign taken

theorem wp_commit {id : String} {inserted : Bool}
    (executed : Executed task id inserted state) :
    (safety spare world).wp task commit
      (fun outcome after =>
        match outcome with
        | .ok () => Inserted task id inserted after
        | .error error => error.cls.isOwn = false)
      state := by
  refine wp_paying (Executed.stable id inserted) executed ?_ ?_
  · intro before choice _ _ _
    exact owes_of_free trivial
  · intro before choice reply after _ held taken
    rcases exec_commit taken with ⟨rfl, reached⟩ | ⟨⟨error, rfl⟩, _⟩
    · rw [reached]
      cases inserted with
      | true =>
          obtain ⟨entry, found, same⟩ := held
          rw [acknowledged_of_openRow found, ← same]
          refine ⟨?_, fun _ => List.mem_cons_self⟩
          exact List.mem_map.mpr ⟨entry.row, by simp, rfl⟩
      | false =>
          refine ⟨?_, fun different => by cases different⟩
          exact (grows_acknowledged before task).mem_table held
    · exact error_foreign taken

theorem classifyDbError_honest {error classified : PyException}
    (found : classifyDbError error = some classified) :
    classified.cls.isPermanent = false := by
  unfold classifyDbError at found
  repeat' split at found
  all_goals cases found
  all_goals rfl

/-- No classified database error is permanent. -/
theorem wp_reraiseClassified {α : Type} {error : PyException}
    {post : Except PyException α → State → Prop}
    (foreign : error.cls.isOwn = false)
    (raised : ∀ error : PyException, error.cls.isPermanent = false →
      post (.error error) state) :
    (safety spare world).wp task (reraiseClassified error) post state := by
  have temporary : error.cls.isPermanent = false :=
    ForeignException.not_permanent ⟨error, foreign⟩
  unfold reraiseClassified
  split
  · cases found : classifyDbError error with
    | none =>
        rw [Option.getD_none]
        exact raised error temporary
    | some classified =>
        rw [Option.getD_some]
        exact raised classified (classifyDbError_honest found)
  · exact raised error temporary

theorem wp_insertIgnoreDuplicate {row : ProcessedTransaction}
    (supported : Supported world row state) :
    (safety spare world).wp task (insertIgnoreDuplicate row)
      (fun outcome after =>
        match outcome with
        | .ok _ => InTable row.id after
        | .error error => error.cls.isPermanent = false)
      state := by
  have written : (safety spare world).wp task
      (do let inserted ← execute row
          commit
          return inserted)
      (fun outcome after =>
        match outcome with
        | .ok inserted => Inserted task row.id inserted after
        | .error error => error.cls.isOwn = false)
      state := by
    refine Discipline.wp_seq (wp_execute supported) ?_ ?_
    · intro inserted after executed
      refine Discipline.wp_seq (wp_commit executed) ?_ ?_
      · intro _ later done
        exact done
      · intro error later foreign
        exact foreign
    · intro error after foreign
      exact foreign
  have caught : (safety spare world).wp task
      (Prog.tryExcept
        (do let inserted ← execute row
            commit
            return inserted)
        reraiseClassified)
      (fun outcome after =>
        match outcome with
        | .ok inserted => Inserted task row.id inserted after
        | .error error => error.cls.isPermanent = false)
      state := by
    refine Discipline.wp_tryExcept written ?_ ?_
    · intro inserted after done
      exact done
    · intro error after foreign
      exact wp_reraiseClassified foreign fun _ temporary => temporary
  refine Discipline.wp_seq caught ?_ ?_
  · intro inserted after done
    have returned : (safety spare world).wp task
        (App.observe (.insertReturned row.id inserted))
        (Calm (InTable row.id)) after := by
      refine wp_paying (Inserted.stable row.id inserted) done ?_ ?_
      · intro before choice _ held _
        refine ⟨fun _ => trivial, ?_, trivial⟩
        cases inserted with
        | true => exact held.2 rfl
        | false => exact trivial
      · intro before choice reply later _ held taken
        have kept := (exec_grows taken).mem_table held.1
        cases reply with
        | ok value => exact kept
        | error error => exact ⟨kept, error_foreign taken⟩
    refine Discipline.wp_seq returned ?_ ?_
    · intro _ later stored
      exact stored
    · intro error later calm
      exact ForeignException.not_permanent ⟨error, calm.2⟩
  · intro error after temporary
    exact temporary

end Insert

/-! ## The processor -/

/-- The event was parsed from a delivered message. -/
def Arrived (world : World) (event : TransactionEvent) (state : State) :
    Prop :=
  ∃ id fields, state.entryFields id = some fields ∧
    (∃ task, .delivered task id ∈ state.history) ∧
      parseFields world.unicode world.json fields = .ok event

theorem Arrived.lasting (world : World) (event : TransactionEvent) :
    Lasting (Arrived world event) := by
  intro before after grows arrived
  obtain ⟨id, fields, entry, ⟨task, delivered⟩, parsed⟩ := arrived
  exact ⟨id, fields, grows.entryFields entry,
    ⟨task, grows.delivered delivered⟩, parsed⟩

section Process

variable {spare : Prop} {world : World} {task : Tid} {state : State}

/-- Counting a retry keeps every lasting assertion. -/
theorem wp_onRetry {holds : State → Prop} (lasting : Lasting holds)
    (operation : RetriedOperation) (attempt : Nat) (exc : PyException)
    (delay : Python.PyFloat) (current : holds state) :
    (safety spare world).wp task (onRetry operation attempt exc delay)
      (Calm holds) state :=
  wp_free trivial lasting current

theorem wp_lookUpRate (event : TransactionEvent) :
    (safety spare world).wp task (lookUpRate world event)
      (fun outcome after =>
        match outcome with
        | .ok rate? => ∃ rate, rate? = some rate ∧
            Source.Answered after event.currency rate
        | .error error => Honest error)
      state := by
  have always := Lasting.const True
  refine wp_retryAsync always.stable (safety_mayPause always) ?_ ?_ ?_ _ _ _
    trivial
  · intro attempt exc delay reached held
    exact wp_onRetry always .rateLookup attempt exc delay held
  · intro reached _
    refine Discipline.wp_mono ?_ (wp_getRate event.currency)
    intro outcome after posted
    cases outcome with
    | ok rate => exact ⟨rate, rfl, posted⟩
    | error error => exact ⟨trivial, posted⟩
  · intro error reached _ foreign
    exact honest_of_not_own foreign

theorem wp_insertRow {row : ProcessedTransaction}
    (supported : Supported world row state) :
    (safety spare world).wp task (insertRow world row)
      (fun outcome after =>
        match outcome with
        | .ok _ => InTable row.id after
        | .error error => Honest error)
      state := by
  have lasting := Supported.lasting world row
  refine wp_retryAsync lasting.stable (safety_mayPause lasting) ?_ ?_ ?_ _ _ _
    supported
  · intro attempt exc delay reached held
    exact wp_onRetry lasting .dbInsert attempt exc delay held
  · intro reached held
    refine Discipline.wp_mono ?_
      (wp_carry lasting held (wp_insertIgnoreDuplicate held))
    intro outcome after posted
    cases outcome with
    | ok inserted => exact posted.1
    | error error => exact ⟨posted.2, honest_of_not_permanent posted.1⟩
  · intro error reached _ foreign
    exact honest_of_not_own foreign

theorem amountUsdOf_error_honest {amount : Decimal} {rate : Decimal}
    {error : PyException}
    (failed : amountUsdOf amount (some rate) = .error error) :
    Honest error := by
  simp only [amountUsdOf] at failed
  split at failed
  · cases failed
  case h_2 signal _ =>
    cases failed
    cases signal with
    | invalidOperation => exact honest_of_not_permanent rfl
    | overflow => exact honest_of_not_permanent rfl

theorem convertToUsd_of_amountUsdOf {amount rate used amountUsd : Decimal}
    (converted : amountUsdOf amount (some rate) = .ok (used, amountUsd)) :
    used = rate ∧ convertToUsd amount rate = .ok amountUsd := by
  simp only [amountUsdOf] at converted
  split at converted
  case h_1 result equality =>
    cases converted
    exact ⟨rfl, equality⟩
  case h_2 => cases converted

/-- A row that is built from an arrived event and an answered rate has a
source. -/
theorem supported_processedRow {event : TransactionEvent}
    {rate amountUsd : Decimal} {processedAt : DateTime}
    (arrived : Arrived world event state)
    (answered : Source.Answered state event.currency rate)
    (converted : convertToUsd event.amount rate = .ok amountUsd) :
    Supported world (processedRow event rate amountUsd processedAt) state := by
  obtain ⟨id, fields, entry, delivered, parsed⟩ := arrived
  exact ⟨⟨id, fields, event, rate, amountUsd, processedAt⟩,
    ⟨entry, delivered, parsed, answered, converted⟩, rfl⟩

/-- What a call of `process` establishes. -/
def ProcessPost (event : TransactionEvent) :
    Except PyException Outcome → State → Prop
  | .ok _, state => InTable event.id state
  | .error error, _ => Honest error

theorem wp_process {event : TransactionEvent}
    (arrived : Arrived world event state) :
    (safety spare world).wp task (process world event) (ProcessPost event)
      state := by
  have arrivedLasts := Arrived.lasting world event
  refine Discipline.wp_seq
    (wp_carry arrivedLasts arrived (wp_lookUpRate event)) ?_ ?_
  · intro rate? after reached
    obtain ⟨⟨rate, rfl, answered⟩, stillArrived⟩ := reached
    cases converted : amountUsdOf event.amount (some rate) with
    | error error => exact amountUsdOf_error_honest converted
    | ok amounts =>
        obtain ⟨used, amountUsd⟩ := amounts
        obtain ⟨rfl, product⟩ := convertToUsd_of_amountUsdOf converted
        have lasting := arrivedLasts.and
          (Source.Answered.lasting event.currency used)
        have clock : (safety spare world).wp task App.utcNow
            (Calm fun later => Arrived world event later ∧
              Source.Answered later event.currency used) after := by
          refine Discipline.wp_seq
            (wp_free trivial lasting ⟨stillArrived, answered⟩) ?_ ?_
          · intro wall later held
            exact held
          · intro error later calm
            exact calm
        change (safety spare world).wp task
          (App.utcNow.bind fun processedAt =>
            (insertRow world
                (processedRow event used amountUsd processedAt)).bind
              fun inserted =>
                if inserted = some true then .ret Outcome.processed
                else .ret Outcome.duplicate) _ after
        refine Discipline.wp_seq clock ?_ ?_
        · intro processedAt later held
          refine Discipline.wp_seq
            (wp_insertRow (supported_processedRow held.1 held.2 product)) ?_ ?_
          · intro inserted last stored
            split
            · exact stored
            · exact stored
          · intro error last honest
            exact honest
        · intro error later calm
          exact honest_of_not_own calm.2
  · intro error after reached
    exact reached.1

end Process

end TxnEvents
