import TxnEvents.Effects.Agreement
import TxnEvents.Ledger.Fidelity
import TxnEvents.Ledger.Tiling
import TxnEvents.Ledger.Walking
import TxnEvents.Queue.Parsing

/-!
# Ingest, query and the local time zones

A timestamp without an offset means UTC on the way in and in the bounds of a
query, so a stored event is listed between the moments that the client means.
No program lets the driver see a time of day without an offset, so the local
zones of the processes, and of the sessions of the database, decide nothing.
-/

namespace TxnEvents

open Effects Arith Python App

/-! ## What a client means -/

/-- The moment in UTC, where a value without an offset means UTC. -/
def DateTime.inUtc (moment : DateTime) : Int :=
  moment.wall - moment.utcOffset.getD 0 * 60000000

/-- The query asks for this moment. -/
structure TransactionsQuery.Covers
    (query : TransactionsQuery)
    (timestamp : DateTime) : Prop where
  from_ : ∀ start, query.start = some start → start.inUtc ≤ timestamp.inUtc
  until_ : ∀ stop, query.stop = some stop → timestamp.inUtc < stop.inUtc

/-- The rows that a query selects from the table. -/
def selected
    (world : World)
    (table : Table)
    (query : TransactionsQuery) : Except PyException (Table × Nat) :=
  listed world table query.userId (boundOrUtc query.start)
    (boundOrUtc query.stop) query.limit query.offset

/-- The query selects the row from the table. -/
def Selects
    (world : World)
    (table : Table)
    (query : TransactionsQuery)
    (row : StoredTransaction) : Prop :=
  ∃ rows total, selected world table query = .ok (rows, total) ∧ row ∈ rows

/-! ## What the driver is sent -/

section Bounds

variable {world : World} {table : Table} {query : TransactionsQuery}
  {row : StoredTransaction}

/-- The driver is sent the moments that the client means. -/
theorem driverInstant_boundOrUtc
    (zone : LocalZone)
    (bound : Option DateTime) :
    (boundOrUtc bound).map (driverInstant zone) =
      bound.map DateTime.inUtc := by
  cases bound with
  | none => rfl
  | some moment => rfl

theorem queryWindow_eq
    (world : World)
    (query : TransactionsQuery) :
    queryWindow world query =
      ⟨query.start.map DateTime.inUtc, query.stop.map DateTime.inUtc⟩ := by
  rw [queryWindow, driverInstant_boundOrUtc, driverInstant_boundOrUtc]

theorem contains_iff_covers
    (world : World)
    {timestamp : DateTime} :
    (queryWindow world query).Contains timestamp.inUtc ↔
      query.Covers timestamp := by
  rw [queryWindow_eq]
  constructor
  · rintro ⟨from_, until_⟩
    exact {
      from_ := fun start given => from_ _ (by rw [given]; rfl)
      until_ := fun stop given => until_ _ (by rw [given]; rfl) }
  · intro covers
    constructor
    · intro bound given
      rcases Option.map_eq_some_iff.mp given with ⟨start, here, rfl⟩
      exact covers.from_ start here
    · intro bound given
      rcases Option.map_eq_some_iff.mp given with ⟨stop, here, rfl⟩
      exact covers.until_ stop here

theorem selects_iff :
    Selects world table query row ↔
      row ∈ pageRows world.collation table query.userId
        (queryWindow world query) query.limit query.offset := by
  have same : selected world table query =
      .ok (pageRows world.collation table query.userId
          (queryWindow world query) query.limit query.offset,
        (listing world table query.userId (boundOrUtc query.start)
          (boundOrUtc query.stop)).length) :=
    listed_eq world table query.userId _ _ query.limit query.offset
  constructor
  · rintro ⟨rows, total, answered, member⟩
    rw [same] at answered
    cases answered
    exact member
  · intro member
    exact ⟨_, _, same, member⟩

/-- The pages of a query show the rows in its window. -/
theorem exists_selects_iff :
    (∃ offset, Selects world table (query.at offset) row) ↔
      row ∈ table ∧ row.userId = query.userId ∧
        (queryWindow world query).Contains row.timestamp := by
  have onPage : ∀ offset, Selects world table (query.at offset) row ↔
      row ∈ pageRows world.collation table query.userId
        (queryWindow world query) query.limit offset :=
    fun offset => selects_iff
  rw [exists_congr onPage]
  exact exists_mem_pageRows_iff query.limitBounds.1

end Bounds

/-! ## The local zones -/

/-- The local zones of the processes and of the database sessions. -/
structure LocalZones where
  process : Process → LocalZone
  session : LocalZone

/-- The world in which the processes and the sessions have these zones.
`reads` is the rule of the driver, that is, which of them it takes for a time
of day without an offset. -/
def World.inZones
    (world : World)
    (reads : LocalZones → Process → LocalZone)
    (zones : LocalZones) : World :=
  { world with localZone := reads zones }

/-- The row tells the driver no time of day without an offset. -/
def ProcessedTransaction.Aware (row : ProcessedTransaction) : Prop :=
  row.timestamp.utcOffset.isSome = true ∧
    row.processedAt.utcOffset.isSome = true

def Command.Dated : Command → Prop
  | execute row => row.Aware
  | _ => True

theorem driverInstant_eq
    {moment : DateTime}
    (aware : moment.utcOffset.isSome = true)
    (zone other : LocalZone) :
    driverInstant zone moment = driverInstant other moment := by
  rcases Option.isSome_iff_exists.mp aware with ⟨offset, given⟩
  rw [driverInstant, driverInstant, given]
  rfl

theorem ProcessedTransaction.Aware.toColumns_eq
    {row : ProcessedTransaction}
    (aware : row.Aware)
    (zone other : LocalZone) : row.toColumns zone = row.toColumns other := by
  rw [toColumns, toColumns, driverInstant_eq aware.1 zone other,
    driverInstant_eq aware.2 zone other]

section Zones

variable (world : World) (reads : LocalZones → Process → LocalZone)
  (zones : LocalZones)

theorem exec_inZones
    (state : State)
    (task : Tid)
    {command : Command}
    (dated : command.Dated)
    (choice : Choice) :
    exec (world.inZones reads zones) state task command choice =
      exec world state task command choice := by
  cases command with
  | execute row =>
      change Db.execute (world.inZones reads zones) state task row
        choice.fate = Db.execute world state task row choice.fate
      cases choice.fate with
      | ok =>
          rw [Db.execute, Db.execute, Db.insert, Db.insert,
            dated.toColumns_eq _ (world.localZone task.process)]
          rfl
      | failedBefore raised => rfl
      | failedAfter raised => rfl
  | _ => rfl

theorem userTransactions_inZones
    (query : TransactionsQuery) :
    userTransactions (world.inZones reads zones) query =
      userTransactions world query := by
  rw [userTransactions, userTransactions, listUserTransactions,
    listUserTransactions]
  simp only [driverInstant_boundOrUtc]
  rfl

theorem serve_inZones
    (request : Request) :
    serve (world.inZones reads zones) request = serve world request := by
  cases request with
  | ingest body => rfl
  | summary userId => rfl
  | transactions query =>
      rw [serve, serve, route, route, userTransactions_inZones]

theorem parseEntries_inZones
    (deliveryCounts : MsgId → Nat)
    (entries : List (MsgId × Dict)) :
    parseEntries (world.inZones reads zones) deliveryCounts entries =
      parseEntries world deliveryCounts entries := by
  induction entries with
  | nil => rfl
  | cons entry rest inductionHypothesis =>
      rw [parseEntries, parseEntries, inductionHypothesis]
      rfl

theorem handle_inZones :
    handle (world.inZones reads zones) = handle world :=
  rfl

theorem consumeRound_inZones :
    consumeRound (world.inZones reads zones) = consumeRound world := by
  have same : read (world.inZones reads zones) = read world := by
    rw [read, read]
    simp only [parseEntries_inZones]
    rfl
  rw [consumeRound, consumeRound, same, handle_inZones]

theorem reclaimRound_inZones :
    reclaimRound (world.inZones reads zones) = reclaimRound world := by
  have same : ∀ minIdleMs, claimStale (world.inZones reads zones) minIdleMs =
      claimStale world minIdleMs := by
    intro minIdleMs
    rw [claimStale, claimStale]
    simp only [parseEntries_inZones]
    rfl
  rw [reclaimRound, reclaimRound, same, handle_inZones]
  rfl

theorem next_inZones : next (world.inZones reads zones) = next world := by
  funext finished tasks
  cases finished with
  | request number => rfl
  | boot name =>
      rw [next, next, consumeRound_inZones, reclaimRound_inZones]
  | consume name => rw [next, next, consumeRound_inZones]
  | reclaim name => rw [next, next, reclaimRound_inZones]

theorem happen_inZones :
    happen (world.inZones reads zones) = happen world := by
  funext event state tasks
  cases event with
  | ask number request => rw [happen, happen, serve_inZones]
  | _ => rfl

/-- The zones show in nothing but rows without an offset. -/
theorem agrees_inZones :
    (system (world.inZones reads zones)).Agrees (system world)
      Command.Dated where
  exec := fun state task _ choice dated =>
    exec_inZones world reads zones state task dated choice
  next := next_inZones world reads zones
  env := happen_inZones world reads zones

end Zones

/-! ## Every row has its offsets -/

section Dated

theorem Command.Routes.dated {command : Command} (routes : command.Routes) :
    command.Dated := by
  cases command <;> first | exact trivial | exact routes.elim

theorem Command.Boots.dated {command : Command} (boots : command.Boots) :
    command.Dated := by
  cases command <;> first | exact trivial | exact boots.elim

theorem Command.Buries.dated {command : Command} (buries : command.Buries) :
    command.Dated := by
  cases command <;> first | exact trivial | exact buries.elim

variable (world : World)

theorem dated_retryAsync
    {α : Type}
    {fn : App α}
    {attempts : Int}
    {baseDelay maxDelay : ℚ}
    (operation : RetriedOperation)
    (dated : fn.Uses Command.Dated) :
    (retryAsync fn attempts baseDelay maxDelay ExceptionClass.isTransient
      (onRetry operation)).Uses Command.Dated :=
  uses_retryAsync trivial (fun _ => trivial) dated
    (fun _ _ _ => Prog.Uses.perform trivial) _ _ _

/-- The two moments of a processed row have an offset: the one of a validated
event, and that of `datetime.now(UTC)`. -/
theorem dated_process
    (event : TransactionEvent) :
    (process world event).Uses Command.Dated := by
  apply Prog.Uses.bind
  · apply dated_retryAsync .rateLookup
    apply (looksUp_getRate world event.currency).mono
    intro command looksUp
    cases command <;> first | exact trivial | exact looksUp.elim
  · intro rate?
    apply Prog.Uses.bind (Prog.Uses.ofExcept _)
    intro amounts
    simp only [utcNow, Prog.monadBind_eq_bind]
    rw [Prog.bind_assoc]
    apply Prog.Uses.bind (Prog.Uses.perform trivial)
    intro wall
    rw [Prog.ret_bind]
    apply Prog.Uses.bind
    · have aware : (processedRow event amounts.1 amounts.2
          ⟨wall, some 0⟩).Aware := ⟨rfl, rfl⟩
      exact dated_retryAsync .dbInsert
        (uses_insertIgnoreDuplicate aware trivial fun _ => trivial)
    · intro inserted
      split
      case isTrue => exact trivial
      case isFalse => exact trivial

theorem dated_deadLetter
    (msg : StreamMessage)
    (reason : String) : (deadLetter msg reason).Uses Command.Dated := by
  apply Prog.Uses.bind (Prog.Uses.perform trivial)
  intro announced
  exact Prog.Uses.bind (Prog.Uses.perform trivial) fun _ =>
    Prog.Uses.perform trivial

theorem dated_handleFailure
    (msg : StreamMessage)
    (exc : PyException) :
    (handleFailure world msg exc).Uses Command.Dated := by
  have buried : ∀ reason kind, ((deadLetter msg reason).bind fun _ =>
      App.inc (.eventsFailed kind)).Uses Command.Dated := by
    intro reason kind
    exact Prog.Uses.bind (dated_deadLetter msg reason) fun _ =>
      Prog.Uses.perform trivial
  rw [handleFailure]
  split
  · exact buried _ _
  · split
    · split
      · exact buried _ _
      · exact Prog.Uses.perform trivial
    · exact buried _ _

theorem dated_handle
    (msg : StreamMessage) : (handle world msg).Uses Command.Dated := by
  have processed : (processAndAck world msg).Uses Command.Dated := by
    apply Prog.Uses.bind (dated_process world msg.event).attempt
    intro ended
    apply Prog.Uses.bind (Prog.Uses.perform trivial)
    intro noted
    apply Prog.Uses.bind (Prog.Uses.ofExcept _)
    intro outcome
    exact Prog.Uses.bind (Prog.Uses.perform trivial) fun _ =>
      Prog.Uses.perform trivial
  apply Prog.Uses.bind (Prog.Uses.perform trivial)
  intro started
  apply Prog.Uses.bind
  · exact Prog.Uses.tryExcept processed (dated_handleFailure world msg)
  · intro handled
    exact Prog.Uses.perform trivial

theorem dated_parseEntries
    (deliveryCounts : MsgId → Nat)
    (entries : List (MsgId × Dict)) :
    (parseEntries world deliveryCounts entries).Uses Command.Dated :=
  (uses_parseEntries world deliveryCounts entries).mono fun _ buries =>
    buries.dated

theorem dated_consumeRound : (consumeRound world).Uses Command.Dated := by
  have messages : (read world).Uses Command.Dated := by
    apply Prog.Uses.bind (Prog.Uses.perform trivial)
    intro entries
    split
    case isTrue => exact trivial
    case isFalse => exact dated_parseEntries world _ entries
  apply Prog.Uses.bind messages
  intro read
  exact Prog.Uses.forEach fun msg _ => dated_handle world msg

theorem dated_reclaimRound : (reclaimRound world).Uses Command.Dated := by
  have messages : (claimStale world world.settings.minIdleMs).Uses
      Command.Dated := by
    apply Prog.Uses.bind (Prog.Uses.perform trivial)
    intro reply
    split
    case isTrue => exact trivial
    case isFalse =>
      apply Prog.Uses.bind (uses_lookUpCounts (fun _ => trivial) _ _)
      intro counts
      exact dated_parseEntries world counts reply.claimed
  apply Prog.Uses.bind (Prog.Uses.perform trivial)
  intro slept
  apply Prog.Uses.bind messages
  intro claimed
  exact Prog.Uses.forEach fun msg _ => dated_handle world msg

theorem dated_starts
    {program : App Unit}
    (starts : Starts world program) : program.Uses Command.Dated := by
  cases starts with
  | serve request =>
      exact uses_serve_of (fun _ routes => routes.dated)
        (fun _ _ => trivial) world request
  | boot => exact (uses_bootWorker world).mono fun _ boots => boots.dated
  | consume => exact dated_consumeRound world
  | reclaim => exact dated_reclaimRound world

/-- No task of the system stores a time of day without an offset. -/
theorem confined_dated : (system world).Confined Command.Dated where
  next := by
    intro finished tasks uses task program running
    rcases next_cases running with before | follows
    · exact uses task program before
    · exact dated_starts world follows.starts
  env := by
    intro event state tasks after tasksAfter uses occurred task program running
    rcases happen_tasks occurred running with ⟨before, _⟩ | begins
    · exact uses task program before
    · exact dated_starts world begins.starts

/-- The zones decide nothing, whatever happens in the run. -/
theorem run_inZones
    (reads : LocalZones → Process → LocalZone)
    (zones : LocalZones)
    (guard : AppGuard)
    (actions : List AppAction) :
    (system (world.inZones reads zones)).run guard start actions =
      (system world).run guard start actions := by
  have uses : TasksUse Command.Dated start.tasks := by
    intro task program running
    cases running
  have agrees := agrees_inZones world reads zones
  exact agrees.run_eq (confined_dated (world.inZones reads zones)) uses guard
    actions

end Dated

/-! ## What is listed -/

/-- The event of the row is listed by its moment. -/
structure ListedByMoment
    (world : World)
    (config : AppConfig)
    (body : EventBody)
    (row : StoredTransaction) : Prop where
  /-- The pages of a query select the row exactly when the query covers the
  timestamp of the body. -/
  selected : ∀ (table : Table) (query : TransactionsQuery),
    config.shared.db.table <+: table → query.userId = body.userId →
      ((∃ offset, Selects world table (query.at offset) row) ↔
        query.Covers body.timestamp)
  /-- A page that a client receives has the event on it exactly when the query
  selects the row. -/
  received : ∀ (query : TransactionsQuery) page after,
    Received world query config page after →
      ∃ table, config.shared.db.table <+: table ∧
        (body.id ∈ page.items.map TransactionOut.id ↔
          Selects world table query row)
  /-- A client is answered unless the page has a number on it that is not
  finite.  The bounds of the driver, on moments and on offsets from 2 ^ 63 on,
  are not modelled. -/
  answered : ∀ (table : Table) (query : TransactionsQuery),
    (∃ page, (userTransactions world query).endsWith (seeing table) =
        .ok page) ↔
      ∀ other, Selects world table query other → ∃ item,
        transactionOut other = .ok item

section Listed

variable {world : World} {config : AppConfig} {body : EventBody}
  {row : StoredTransaction}

theorem received_selects
    (reaches : Reaches world Permit.any config)
    (member : row ∈ config.shared.db.table)
    {query : TransactionsQuery}
    {page : TransactionPage}
    {after : AppConfig}
    (received : Received world query config page after) :
    ∃ table, config.shared.db.table <+: table ∧
      (row.id ∈ page.items.map TransactionOut.id ↔
        Selects world table query row) := by
  rcases cutFrom_of_received received with
    ⟨rowsTable, countTable, old, grown, count, cut⟩
  have unique := (reaches_safe_of_any
    (reaches_of_received reaches received)).db.unique
  have rowsUnique : (rowsTable.map StoredTransaction.id).Nodup :=
    unique.sublist ((grown.trans count).sublist.map _)
  refine ⟨rowsTable, old, ?_⟩
  rw [selects_iff, ids_of_shown cut.items]
  constructor
  · intro shown
    rcases List.mem_map.mp shown with ⟨other, onPage, sameId⟩
    have inTable : other ∈ rowsTable := mem_of_mem_pageRows onPage
    have same : other = row :=
      List.inj_on_of_nodup_map rowsUnique inTable (old.subset member) sameId
    rw [← same]
    exact onPage
  · intro onPage
    exact List.mem_map.mpr ⟨row, onPage, rfl⟩

theorem exists_transactionOuts_iff
    {rows : Table} :
    (∃ items, transactionOuts rows = .ok items) ↔
      ∀ row ∈ rows, ∃ item, transactionOut row = .ok item := by
  constructor
  · rintro ⟨items, shown⟩ row member
    rcases exists_shown (transactionOuts_ok shown) member with ⟨item, _, here⟩
    exact ⟨item, here⟩
  · intro each
    induction rows with
    | nil => exact ⟨[], rfl⟩
    | cons row rest inductionHypothesis =>
        rw [List.forall_mem_cons] at each
        rcases each with ⟨⟨item, here⟩, others⟩
        rcases inductionHypothesis others with ⟨items, later⟩
        refine ⟨item :: items, ?_⟩
        rw [transactionOuts, here, later]
        rfl

/-- On a table that stays as it is, a query that is answered is answered with
what it selects. -/
theorem answer_eq
    (table : Table)
    (query : TransactionsQuery) :
    (userTransactions world query).endsWith (seeing table) =
      pageOn world query table table := by
  let shaped (items : List TransactionOut) : App TransactionPage :=
    .ret {
      items
      total := pageTotal table query.userId (queryWindow world query)
      limit := query.limit
      offset := query.offset }
  let shown : App (List TransactionOut) :=
    Prog.ofExcept (transactionOuts (pageRows world.collation table
      query.userId (queryWindow world query) query.limit query.offset))
  change (shown.bind shaped).endsWith (seeing table) = _
  rw [pageOn]
  simp only [shown]
  cases transactionOuts (pageRows world.collation table query.userId
      (queryWindow world query) query.limit query.offset) with
  | error error => rfl
  | ok items => rfl

theorem exists_answer_iff
    {table : Table}
    {query : TransactionsQuery} :
    (∃ page, (userTransactions world query).endsWith (seeing table) =
        .ok page) ↔
      ∀ other, Selects world table query other → ∃ item,
        transactionOut other = .ok item := by
  simp only [selects_iff]
  rw [answer_eq, ← exists_transactionOuts_iff]
  constructor
  · rintro ⟨page, answer⟩
    cases shown : transactionOuts (pageRows world.collation table
        query.userId (queryWindow world query) query.limit query.offset) with
    | error error =>
        rw [pageOn, shown] at answer
        cases answer
    | ok items => exact ⟨items, rfl⟩
  · rintro ⟨items, shown⟩
    rw [pageOn, shown]
    exact ⟨_, rfl⟩

end Listed

/-- A stored event is listed by the moments that its body and the query mean,
and the local zones decide nothing. -/
theorem ingest_and_query_agree_on_time
    {world : World}
    {config : AppConfig}
    (reaches : Reaches world Permit.any config)
    {body : EventBody}
    {streamId : Nat}
    (accepted : Accepted config.shared body streamId)
    {row : StoredTransaction}
    (member : row ∈ config.shared.db.table)
    (stored : StoredFor world config.shared streamId row) :
    ListedByMoment world config body row ∧
      ∀ reads zones other guard actions,
        (system (world.inZones reads zones)).run guard start actions =
          (system (world.inZones reads other)).run guard start actions := by
  have columns :=
    storedAccepted (reaches_safe_of_any reaches).promises accepted stored
  constructor
  · exact {
      selected := by
        intro table query grown sameUser
        rw [exists_selects_iff, ← contains_iff_covers world,
          columns.timestamp, columns.userId, sameUser]
        constructor
        · rintro ⟨_, _, inWindow⟩
          exact inWindow
        · intro inWindow
          exact ⟨grown.subset member, rfl, inWindow⟩
      received := by
        intro query page after received
        rw [← columns.id]
        exact received_selects reaches member received
      answered := fun table query => exists_answer_iff }
  · intro reads zones other guard actions
    rw [run_inZones, run_inZones]

theorem ingest_and_query_agree_on_time_coffee :
    ∃ config row, Reaches (coffeeWorld {}) Permit.any config ∧
      row ∈ config.shared.db.table ∧
        ListedByMoment (coffeeWorld {}) config coffee row ∧
          ∀ reads zones other guard actions,
            (system ((coffeeWorld {}).inZones reads zones)).run guard start
                actions =
              (system ((coffeeWorld {}).inZones reads other)).run guard start
                actions := by
  rcases coffee_is_stored with ⟨config, row, reaches, accepted, member, stored⟩
  have agree := ingest_and_query_agree_on_time reaches accepted member stored
  exact ⟨config, row, reaches, member, agree.1, agree.2⟩

end TxnEvents
