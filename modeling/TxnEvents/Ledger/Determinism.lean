import TxnEvents.Ledger.ExactlyOnce
import TxnEvents.Ledger.Listing

/-!
# The ledger does not depend on the schedule

When the rate service is constant, a row is determined by the event it was
stored for, up to the time of processing.  A run that has drained has one row
for every event with a known currency.  So two drained runs over the same
events have the same ledger, whatever happened on the way.
-/

namespace TxnEvents

open Effects Arith Python

/-! ## A constant rate service -/

/-- What the rate service says about each currency: a rate, or a 404. -/
abbrev Rates : Type := String → Option Decimal

/-- The outcome of a lookup is a failure or what the rates say. -/
structure HttpOutcome.Follows (outcome : HttpOutcome) (rates : Rates)
    (currency : String) : Prop where
  found : ∀ rate, outcome.rate? = some rate → rates currency = some rate
  missing : ∀ response, outcome = .answered response →
    response.statusCode = 404 → rates currency = none

/-- Runs in which the rate service, whenever it answers, says the same about a
currency. -/
def constantRates (rates : Rates) : AppPermit where
  command _ _ command choice :=
    match command with
    | .httpGet currency => choice.http.Follows rates currency
    | _ => True
  env _ _ := True

theorem rateAnswered_cases {world : World} {state after : State} {task : Tid}
    {command : Command} {choice : Choice}
    {reply : Except PyException command.Reply}
    (taken : exec world state task command choice = some (reply, after))
    {actor : Tid} {currency : String} {rate : Decimal}
    (member : .rateAnswered actor currency rate ∈ after.history) :
    .rateAnswered actor currency rate ∈ state.history ∨
      command = .httpGet currency ∧ choice.http.rate? = some rate := by
  obtain ⟨newer, equality, recorded⟩ := exec_recorded taken
  rw [equality] at member
  rcases List.mem_append.mp member with new | old
  · cases recorded _ new with
    | rateAnswered _ answered => exact Or.inr ⟨rfl, answered⟩
  · exact Or.inl old

/-- Every rate that was answered is the constant one. -/
theorem reaches_constantRates {world : World} {rates : Rates}
    {config : AppConfig}
    (reaches : Reaches world (constantRates rates) config) {currency : String}
    {rate : Decimal}
    (answered : Source.Answered config.shared currency rate) :
    rates currency = some rate := by
  let holds (state : State) : Prop := ∀ task currency rate,
    .rateAnswered task currency rate ∈ state.history →
      rates currency = some rate
  have begins : holds start.shared := by
    intro task currency rate member
    cases member
  have always_ : holds config.shared := by
    refine System.Reachable.invariant_shared begins ?_ ?_ reaches
    · intro state task command choice reply after held permitted taken actor
        currency rate member
      rcases rateAnswered_cases taken member with old | ⟨rfl, given⟩
      · exact held actor currency rate old
      · exact permitted.found rate given
    · intro state event tasks after tasksAfter held _ happened actor currency
        rate member
      exact held actor currency rate (mem_of_happen happened rfl member)
  obtain ⟨task, member⟩ := answered
  exact always_ task currency rate member

/-! ## The row of an event -/

/-- The row says what the columns make of the event and the constant rate of
its currency. -/
structure RowFor (rates : Rates) (event : TransactionEventIn)
    (row : StoredTransaction) : Prop where
  id : row.id = event.id
  userId : row.userId = event.userId
  amount : Numeric.coerce 18 4 event.amount = some row.amount
  currency : varcharUpTo 3 event.currency = .ok row.currency
  converted : ∃ rate amountUsd, rates event.currency = some rate ∧
    convertToUsd event.amount rate = .ok amountUsd ∧
      Numeric.coerce 18 8 rate = some row.rate ∧
        Numeric.coerce 18 4 amountUsd = some row.amountUsd
  timestamp : row.timestamp = event.timestamp.instant

/-- A row without the time it was processed. -/
def StoredTransaction.undated (row : StoredTransaction) : StoredTransaction :=
  { row with processedAt := 0 }

theorem RowFor.undated_eq {rates : Rates} {event : TransactionEventIn}
    {left right : StoredTransaction} (leftRow : RowFor rates event left)
    (rightRow : RowFor rates event right) : left.undated = right.undated := by
  obtain ⟨rate, amountUsd, known, converted, rateKept, amountKept⟩ :=
    leftRow.converted
  obtain ⟨same, equal, knownToo, convertedToo, rateKeptToo, amountKeptToo⟩ :=
    rightRow.converted
  rw [known] at knownToo
  cases knownToo
  rw [converted] at convertedToo
  cases convertedToo
  have ids : left.id = right.id := leftRow.id.trans rightRow.id.symm
  have users : left.userId = right.userId :=
    leftRow.userId.trans rightRow.userId.symm
  have amounts : left.amount = right.amount :=
    Option.some.inj (leftRow.amount.symm.trans rightRow.amount)
  have currencies : left.currency = right.currency :=
    Except.ok.inj (leftRow.currency.symm.trans rightRow.currency)
  have rateColumns : left.rate = right.rate :=
    Option.some.inj (rateKept.symm.trans rateKeptToo)
  have amountColumns : left.amountUsd = right.amountUsd :=
    Option.some.inj (amountKept.symm.trans amountKeptToo)
  have timestamps : left.timestamp = right.timestamp :=
    leftRow.timestamp.trans rightRow.timestamp.symm
  simp only [StoredTransaction.undated, ids, users, amounts, currencies,
    rateColumns, amountColumns, timestamps]

/-! ## Drained runs -/

/-- The events that the entries of the stream carry, without the time they
were received. -/
def published (world : World) (state : State) : List TransactionEventIn :=
  (List.range state.redis.stream.entries.length).filterMap fun id =>
    (state.entryFields id).bind fun fields =>
      (parseFields world.unicode world.json fields).toOption.map
        TransactionEvent.toTransactionEventIn

/-- Everything is delivered and acknowledged, and only events with a currency
that the rate service does not know are dead-lettered. -/
structure Drained (world : World) (rates : Rates) (state : State) : Prop where
  delivered : ∀ id, ¬ Undelivered state id
  acknowledged : ∀ id, ¬ state.Pending id
  letters : ∀ letter ∈ state.redis.deadLetters, ∃ fields event,
    state.entryFields letter.origin = some fields ∧
      parseFields world.unicode world.json fields = .ok event ∧
        rates event.currency = none

theorem mem_published {world : World} {state : State}
    {event : TransactionEventIn} :
    event ∈ published world state ↔ ∃ id fields parsed,
      state.entryFields id = some fields ∧
        parseFields world.unicode world.json fields = .ok parsed ∧
          parsed.toTransactionEventIn = event := by
  rw [published, List.mem_filterMap]
  constructor
  · rintro ⟨id, _, found⟩
    obtain ⟨fields, entry, typed⟩ := Option.bind_eq_some_iff.mp found
    obtain ⟨parsed, parses, same⟩ := Option.map_eq_some_iff.mp typed
    refine ⟨id, fields, parsed, entry, ?_, same⟩
    cases outcome : parseFields world.unicode world.json fields with
    | error error =>
        rw [outcome] at parses
        cases parses
    | ok event =>
        rw [outcome] at parses
        cases parses
        rfl
  · rintro ⟨id, fields, parsed, entry, parses, same⟩
    obtain ⟨wire, found, _⟩ := Option.bind_eq_some_iff.mp entry
    have within := (List.getElem?_eq_some_iff.mp found).1
    refine ⟨id, List.mem_range.mpr within, ?_⟩
    rw [entry, Option.bind_some, parses]
    simp only [Except.toOption, Option.map_some, same]

/-- A row of the table is the row of a published event. -/
theorem rowFor_of_stored {world : World} {rates : Rates} {config : AppConfig}
    (reaches : Reaches world (constantRates rates) config)
    {row : StoredTransaction} (member : row ∈ config.shared.db.table) :
    ∃ event ∈ published world config.shared, RowFor rates event row := by
  obtain ⟨source, valid, process, accepted⟩ :=
    (reaches_safe_of_any reaches).db.sourced row member
  have columns := ProcessedTransaction.storedAs_of_toColumns accepted
  refine ⟨source.event.toTransactionEventIn, ?_, ?_⟩
  · exact mem_published.mpr ⟨source.id, source.fields, source.event,
      valid.entry, valid.parsed, rfl⟩
  · exact {
      id := columns.id
      userId := columns.userId
      amount := columns.amount
      currency := columns.currency
      converted := ⟨source.rate, source.amountUsd,
        reaches_constantRates reaches valid.answered, valid.converted,
        columns.rate, columns.amountUsd⟩
      timestamp := columns.timestamp }

/-- In a drained state every published event with a known currency has its
row. -/
theorem stored_of_drained {world : World} {rates : Rates} {config : AppConfig}
    (unbounded : world.settings.streamMaxlen = none)
    (reaches : Reaches world (constantRates rates) config)
    (drained : Drained world rates config.shared) {event : TransactionEventIn}
    (member : event ∈ published world config.shared) {rate : Decimal}
    (known : rates event.currency = some rate) :
    ∃ row ∈ config.shared.db.table, row.id = event.id := by
  obtain ⟨id, fields, parsed, entry, parses, rfl⟩ := mem_published.mp member
  have kept := (reaches_safe (sparing_of_unbounded unbounded reaches)).kept
    trivial
  have within : id < config.shared.redis.stream.entries.length := by
    obtain ⟨wire, found, _⟩ := Option.bind_eq_some_iff.mp entry
    exact (List.getElem?_eq_some_iff.mp found).1
  have retired : config.shared.Retired id := by
    by_contra unfinished
    have live := kept.live id within unfinished
    by_cases handedOut : config.shared.HandedOut id
    · exact drained.acknowledged id
        (State.pending_of_not_retired unfinished handedOut)
    · exact drained.delivered id ⟨live, handedOut⟩
  obtain ⟨found, present, account⟩ := kept.accounted id retired
  rw [entry] at present
  cases present
  rcases account with ⟨letter, lettered, origin, _⟩ | ⟨stored, same, inTable⟩
  · obtain ⟨lost, unknown, lostEntry, lostParses, missing⟩ :=
      drained.letters letter lettered
    rw [origin, entry] at lostEntry
    cases lostEntry
    rw [parses] at lostParses
    cases lostParses
    rw [known] at missing
    cases missing
  · rw [parses] at same
    cases same
    obtain ⟨row, inside, rowId⟩ := List.mem_map.mp inTable
    exact ⟨row, inside, rowId⟩

/-! ## Two runs -/

/-- The tables hold the same transactions, and so do all that is read from
them, up to the time of processing. -/
structure SameLedger (left right : Table) : Prop where
  rows : (left.map StoredTransaction.undated).Perm
    (right.map StoredTransaction.undated)
  summaries : ∀ userId, summaryOf left userId = summaryOf right userId
  pages : ∀ collation userId window limit offset,
    (pageRows collation left userId window limit offset).map
        StoredTransaction.undated =
      (pageRows collation right userId window limit offset).map
        StoredTransaction.undated
  totals : ∀ userId window,
    pageTotal left userId window = pageTotal right userId window

section Undated

variable {left right : Table}

theorem map_undated_ids (table : Table) :
    (table.map StoredTransaction.undated).map StoredTransaction.id =
      table.map StoredTransaction.id := by
  rw [List.map_map]
  rfl

theorem matching_map_undated (table : Table) (userId : String)
    (window : Window) :
    matching (table.map StoredTransaction.undated) userId window =
      (matching table userId window).map StoredTransaction.undated := by
  rw [matching, matching, List.filter_map]
  rfl

theorem newestFirst_map_undated (collation : Collation) (table : Table)
    (userId : String) (window : Window) :
    newestFirst collation (table.map StoredTransaction.undated) userId window =
      (newestFirst collation table userId window).map
        StoredTransaction.undated := by
  rw [newestFirst, newestFirst, matching_map_undated]
  symm
  apply List.map_insertionSort
  intro first _ second _
  exact Iff.rfl

theorem summaryOf_map_undated (table : Table) (userId : String) :
    summaryOf (table.map StoredTransaction.undated) userId =
      summaryOf table userId := by
  simp only [summaryOf, List.filter_map, List.map_map, List.length_map]
  rfl

theorem summaryOf_eq_of_perm (same : left.Perm right) (userId : String) :
    summaryOf left userId = summaryOf right userId := by
  have rows := same.filter fun row => row.userId = userId
  have sums : ((left.filter fun row => row.userId = userId).map
      StoredTransaction.amountUsd).sum =
        ((right.filter fun row => row.userId = userId).map
          StoredTransaction.amountUsd).sum :=
    (rows.map StoredTransaction.amountUsd).sum_eq
  exact Prod.ext sums rows.length_eq

/-- Tables with the same transactions answer every query alike. -/
theorem sameLedger_of_perm (unique : (left.map StoredTransaction.id).Nodup)
    (same : (left.map StoredTransaction.undated).Perm
      (right.map StoredTransaction.undated)) :
    SameLedger left right := by
  have undatedUnique : ((left.map StoredTransaction.undated).map
      StoredTransaction.id).Nodup := by
    rw [map_undated_ids]
    exact unique
  constructor
  · exact same
  · intro userId
    rw [← summaryOf_map_undated left, ← summaryOf_map_undated right]
    exact summaryOf_eq_of_perm same userId
  · intro collation userId window limit offset
    have listings : newestFirst collation
        (left.map StoredTransaction.undated) userId window =
          newestFirst collation (right.map StoredTransaction.undated) userId
            window :=
      newestFirst_eq_of_perm undatedUnique same
    rw [newestFirst_map_undated, newestFirst_map_undated] at listings
    rw [pageRows, pageRows, List.map_take, List.map_drop, List.map_take,
      List.map_drop, listings]
  · intro userId window
    have lengths := (same.filter fun row =>
      row.userId = userId ∧ window.Contains row.timestamp).length_eq
    change (matching _ userId window).length =
      (matching _ userId window).length at lengths
    rw [matching_map_undated, matching_map_undated, List.length_map,
      List.length_map] at lengths
    exact lengths

end Undated

/-- What one drained run has stored, another one over the same events has
stored too. -/
theorem mem_undated_of_mem {left right : World} {rates : Rates}
    {first second : AppConfig}
    (unbounded : right.settings.streamMaxlen = none)
    (firstReaches : Reaches left (constantRates rates) first)
    (secondReaches : Reaches right (constantRates rates) second)
    (same : (published left first.shared).Perm
      (published right second.shared))
    (functional : ∀ event ∈ published right second.shared,
      ∀ other ∈ published right second.shared,
        event.id = other.id → event = other)
    (drained : Drained right rates second.shared) {row : StoredTransaction}
    (member : row ∈ first.shared.db.table.map StoredTransaction.undated) :
    row ∈ second.shared.db.table.map StoredTransaction.undated := by
  obtain ⟨dated, stored, rfl⟩ := List.mem_map.mp member
  obtain ⟨event, inFirst, rowFor⟩ := rowFor_of_stored firstReaches stored
  have inSecond := same.subset inFirst
  obtain ⟨rate, _, known, _⟩ := rowFor.converted
  obtain ⟨other, otherStored, otherId⟩ :=
    stored_of_drained unbounded secondReaches drained inSecond known
  obtain ⟨origin, published_, otherFor⟩ :=
    rowFor_of_stored secondReaches otherStored
  have equal : origin = event := by
    apply functional origin published_ event inSecond
    rw [← otherFor.id, otherId]
  rw [equal] at otherFor
  exact List.mem_map.mpr ⟨other, otherStored, otherFor.undated_eq rowFor⟩

/-- Two drained runs over the same events, with any settings, workers,
failures and crashes, end in the same ledger. -/
theorem ledger_independent_of_schedule {left right : World} {rates : Rates}
    {first second : AppConfig}
    (leftUnbounded : left.settings.streamMaxlen = none)
    (rightUnbounded : right.settings.streamMaxlen = none)
    (firstReaches : Reaches left (constantRates rates) first)
    (secondReaches : Reaches right (constantRates rates) second)
    (same : (published left first.shared).Perm
      (published right second.shared))
    (functional : ∀ event ∈ published left first.shared,
      ∀ other ∈ published left first.shared,
        event.id = other.id → event = other)
    (firstDrained : Drained left rates first.shared)
    (secondDrained : Drained right rates second.shared) :
    SameLedger first.shared.db.table second.shared.db.table := by
  have functionalToo : ∀ event ∈ published right second.shared,
      ∀ other ∈ published right second.shared,
        event.id = other.id → event = other := by
    intro event member other otherMember
    exact functional event (same.symm.subset member) other
      (same.symm.subset otherMember)
  have firstUnique := (reaches_safe_of_any firstReaches).db.unique
  have secondUnique := (reaches_safe_of_any secondReaches).db.unique
  apply sameLedger_of_perm firstUnique
  rw [List.perm_ext_iff_of_nodup]
  · intro row
    constructor
    · exact mem_undated_of_mem rightUnbounded firstReaches secondReaches same
        functionalToo secondDrained
    · exact mem_undated_of_mem leftUnbounded secondReaches firstReaches
        same.symm functional firstDrained
  · rw [← map_undated_ids] at firstUnique
    exact firstUnique.of_map
  · rw [← map_undated_ids] at secondUnique
    exact secondUnique.of_map

/-! ## Two concrete runs -/

/-- Only the euro is known, at 1.1. -/
def euroRates : Rates := fun currency =>
  if currency = "EUR" then some (.finite false 11 (-1)) else none

def euroGuard : AppGuard where
  command _ _ command choice :=
    match command, choice.http with
    | .httpGet currency, .answered response =>
        decide (currency = "EUR" ∧ response.statusCode = 200 ∧
          response.rate.toOption = some (.finite false 11 (-1)))
    | _, _ => true
  env _ _ := true

theorem respects_euroGuard : euroGuard.Respects (constantRates euroRates) where
  command := by
    intro state task command choice passed
    cases command with
    | httpGet currency =>
        cases outcome : choice.http with
        | raised error =>
            change choice.http.Follows euroRates currency
            rw [outcome]
            constructor
            · intro rate impossible
              cases impossible
            · intro response impossible
              cases impossible
        | answered response =>
            simp only [euroGuard, outcome, decide_eq_true_eq] at passed
            obtain ⟨rfl, status, given⟩ := passed
            change choice.http.Follows euroRates "EUR"
            rw [outcome]
            constructor
            · intro rate found
              simp only [HttpOutcome.rate?, status] at found
              simp only [Nat.reduceLeDiff, given] at found
              exact found
            · intro other same missing
              cases same
              rw [status] at missing
              cases missing
    | _ => exact trivial
  env := fun _ _ _ => trivial

/-- Nothing is left to deliver or to acknowledge, and nothing is
dead-lettered. -/
def atRest (state : State) : Bool :=
  match state.redis.group with
  | none => false
  | some group =>
      group.pending.isEmpty && state.redis.deadLetters.isEmpty &&
        decide (state.redis.stream.entries.length ≤ group.lastDelivered)

theorem drained_of_atRest {world : World} {rates : Rates} {state : State}
    (rest : atRest state = true) : Drained world rates state := by
  unfold atRest at rest
  split at rest
  case h_1 => cases rest
  case h_2 group found =>
    obtain ⟨⟨empty, none⟩, all⟩ :
        (group.pending = [] ∧ state.redis.deadLetters = []) ∧
          state.redis.stream.entries.length ≤ group.lastDelivered := by
      simpa using rest
    constructor
    · rintro id ⟨live, unread⟩
      exact unread ⟨group, found, Nat.lt_of_lt_of_le live.2 all⟩
    · rintro id ⟨current, same, entry, member, _⟩
      rw [found] at same
      cases same
      rw [empty] at member
      cases member
    · intro letter member
      rw [none] at member
      cases member

/-- The steps of a reclaim round that stores one event, up to the note that it
is finished. -/
def storeReclaimed (name : Nat) (rate : Decimal) : List AppAction :=
  steps (.reclaim name) 16 (answering rate)

/-- One event in small batches. -/
def frugal : Settings :=
  { unbounded with batchSize := 1 }

theorem ledger_independent_of_schedule_coffee :
    ∃ first second : AppConfig,
      first.shared.db.table.map StoredTransaction.id = ["coffee"] ∧
        SameLedger first.shared.db.table second.shared.db.table := by
  have straight : ((system (coffeeWorld unbounded)).run euroGuard start
      (post 0 coffee {} ++ launch 0 ++
        storeOne 0 (.finite false 11 (-1)))).any
          (fun config =>
            atRest config.shared &&
              decide (published (coffeeWorld unbounded) config.shared =
                [coffeeEvent.toTransactionEventIn]) &&
              decide (config.shared.db.table.map StoredTransaction.id =
                ["coffee"])) = true := by decide +kernel
  -- The other run loses worker 0 after its read, and worker 1 takes over.
  have crashing : ((system (coffeeWorld frugal)).run euroGuard start
      (post 0 coffee {} ++ launch 0 ++ [.run (.consume 0) {}, .env (.kill 0)] ++
        launch 1 ++ [.env (.tick 15000)] ++
          storeReclaimed 1 (.finite false 11 (-1)))).any
            (fun config =>
              atRest config.shared &&
                decide (published (coffeeWorld frugal) config.shared =
                  [coffeeEvent.toTransactionEventIn])) = true := by
    decide +kernel
  obtain ⟨first, firstReaches, shown⟩ :=
    reaches_of_run respects_euroGuard straight
  obtain ⟨second, secondReaches, shownToo⟩ :=
    reaches_of_run respects_euroGuard crashing
  simp only [Bool.and_eq_true, decide_eq_true_eq] at shown shownToo
  obtain ⟨⟨firstRest, firstEvents⟩, ids⟩ := shown
  obtain ⟨secondRest, secondEvents⟩ := shownToo
  have functional : ∀ event ∈ published (coffeeWorld unbounded) first.shared,
      ∀ other ∈ published (coffeeWorld unbounded) first.shared,
        event.id = other.id → event = other := by
    intro event member other otherMember _
    rw [firstEvents, List.mem_singleton] at member otherMember
    rw [member, otherMember]
  refine ⟨first, second, ids, ?_⟩
  exact ledger_independent_of_schedule rfl rfl firstReaches secondReaches
    (by rw [firstEvents, secondEvents]) functional (drained_of_atRest firstRest)
    (drained_of_atRest secondRest)

end TxnEvents
