import TxnEvents.Delivery.Recovery
import TxnEvents.Streams.Pipeline

/-!
# The system is a pipeline

Forgetting deliveries, retries, caches, open transactions, kills and clocks,
what is left of the whole system is a pipeline from the stream to the table.
So its books are always in order, and in a complete state they balance.
-/

namespace TxnEvents

open Effects Arith Python Streams App

/-! ## The abstraction -/

/-- The id of the event that an entry carries. -/
def eventId (world : World) (wire : WireFields) : Option String :=
  (decodeFields wire).bind fun fields =>
    (parseFields world.unicode world.json fields).toOption.map fun event =>
      event.id

/-- The row is what the columns make of the event of the entry, at some rate
and time. -/
def ExplainedBy (world : World) (wire : WireFields) (row : StoredTransaction) :
    Prop :=
  ∃ fields event rate amountUsd processedAt process,
    decodeFields wire = some fields ∧
    parseFields world.unicode world.json fields = .ok event ∧
    convertToUsd event.amount rate = .ok amountUsd ∧
    (processedRow event rate amountUsd processedAt).toColumns
      (world.localZone process) = .ok row

/-- The letter holds the fields of the entry and a reason. -/
def ReplayedBy (wire : WireFields) (letter : DeadLetter) : Prop :=
  ∃ fields reason, decodeFields wire = some fields ∧
    letter.fields = fields.set "reason" reason

theorem eventId_of_parsed {world : World} {wire : WireFields} {fields : Dict}
    {event : TransactionEvent} (decoded : decodeFields wire = some fields)
    (parsed : parseFields world.unicode world.json fields = .ok event) :
    eventId world wire = some event.id := by
  rw [eventId, decoded, Option.bind_some, parsed]
  rfl

def contract (world : World) :
    Contract WireFields StoredTransaction DeadLetter String where
  keyOf := eventId world
  key := StoredTransaction.id
  origin := DeadLetter.origin
  explains := ExplainedBy world
  replays := ReplayedBy
  keyOf_of_explains := by
    intro wire row explained
    rcases explained with
      ⟨fields, event, rate, amountUsd, processedAt, process, decoded, parsed,
        _, accepted⟩
    have columns := ProcessedTransaction.storedAs_of_toColumns accepted
    rw [eventId_of_parsed decoded parsed, columns.id]
    rfl

/-- What of a state is in the books. -/
def books (state : State) : Register WireFields StoredTransaction DeadLetter where
  log := state.redis.stream.entries
  table := state.db.table
  letters := state.redis.deadLetters
  settled := {id | state.Retired id}

section Steps

variable {world : World} {state after : State} {task : Tid}

theorem explainedBy_of_sourced {row : StoredTransaction}
    (sourced : Sourced world state row) :
    ∃ wire ∈ state.redis.stream.entries, ExplainedBy world wire row := by
  rcases sourced with ⟨source, valid, process, accepted⟩
  rcases Option.bind_eq_some_iff.mp valid.entry with ⟨wire, found, decoded⟩
  exact ⟨wire, List.mem_of_getElem? found, source.fields, source.event,
    source.rate, source.amountUsd, source.processedAt, process, decoded,
    valid.parsed, valid.converted, accepted⟩

theorem replayedBy_of_lettered {letter : DeadLetter}
    (lettered : Lettered world state letter.origin letter.fields) :
    ∃ wire, state.redis.stream.entries[letter.origin]? = some wire ∧
      ReplayedBy wire letter := by
  rcases lettered with ⟨fields, reason, entry, same, _⟩
  rcases Option.bind_eq_some_iff.mp entry with ⟨wire, found, decoded⟩
  exact ⟨wire, found, fields, reason, decoded, same⟩

theorem accounted_books {id : MsgId} (accounted : Accounted world state id) :
    (contract world).Accounted (books state) id := by
  rcases accounted with
    ⟨fields, entry, ⟨letter, member, origin, _⟩ | ⟨event, parsed, stored⟩⟩
  · exact .buried letter member origin
  · rcases Option.bind_eq_some_iff.mp entry with ⟨wire, found, decoded⟩
    rcases List.mem_map.mp stored with ⟨row, member, same⟩
    refine .recorded wire row found member ?_
    change eventId world wire = some row.id
    rw [eventId_of_parsed decoded parsed, same]

/-! ## What the group does -/

theorem not_pending_handOut {new : Group} {ids : List MsgId} {id : MsgId}
    (retired : (state.handOut task new ids).Retired id) :
    id < new.lastDelivered ∧ ¬ new.Pending id := by
  rcases retired with ⟨⟨group, found, below⟩, notPending⟩
  cases found
  exact ⟨below, fun pending => notPending ⟨new, rfl, pending⟩⟩

theorem not_pending_of_group {group : Group} {id : MsgId}
    (found : state.redis.group = some group) (absent : ¬ group.Pending id) :
    ¬ state.Pending id := by
  intro pending
  rcases pending with ⟨current, same, present⟩
  rw [found] at same
  cases same
  exact absent present

/-- A read settles nothing. -/
theorem retired_of_read {group : Group} {limit : Option Nat} {id : MsgId}
    (kept : Kept world state) (found : state.redis.group = some group)
    (retired : (state.handOut task
      (group.read state.redis.stream limit state.redis.now)
      (group.unread state.redis.stream limit)).Retired id) :
    state.Retired id := by
  rcases not_pending_handOut retired with ⟨below, notPending⟩
  rw [Group.pending_read_iff, not_or] at notPending
  by_contra unfinished
  rcases Group.lt_lastDelivered_read below with old | fresh | passed
  · exact unfinished ⟨⟨group, found, old⟩,
      not_pending_of_group found notPending.1⟩
  · exact notPending.2 fresh
  · -- what a read passes over has left the stream unfinished
    have within : id < state.redis.stream.entries.length :=
      Nat.lt_of_lt_of_le passed state.redis.stream.bounded
    have present := (kept.live id within unfinished).1
    omega

/-- A claim settles nothing, when no unfinished entry has been trimmed. -/
theorem retired_of_claim {group : Group} {minIdle startId count : Nat}
    {id : MsgId} (kept : Kept world state) (counted : Counted state)
    (found : state.redis.group = some group)
    (retired : (state.handOut task
      (group.claim state.redis.stream state.redis.now minIdle startId count)
      (group.claimScan state.redis.stream state.redis.now minIdle startId
        count).claimed).Retired id) :
    state.Retired id := by
  rcases not_pending_handOut retired with ⟨below, notPending⟩
  have handedOut : state.HandedOut id := ⟨group, found, below⟩
  by_contra unfinished
  have within : id < state.redis.stream.entries.length :=
    Nat.lt_of_lt_of_le below (counted.bounded group found)
  have live := kept.live id within unfinished
  apply unfinished ⟨handedOut, not_pending_of_group found ?_⟩
  intro pending
  apply notPending
  refine (Group.pending_claim_iff id).mpr ⟨pending, ?_⟩
  intro deleted
  exact Group.not_live_of_deleted deleted live

/-- An acknowledgement settles no other message. -/
theorem retired_or_eq_of_xack {id other : MsgId}
    (retired : (Redis.xack state id).2.Retired other) :
    state.Retired other ∨ other = id := by
  by_cases same : other = id
  · exact Or.inr same
  · left
    rcases retired with ⟨⟨current, found, below⟩, notPending⟩
    rcases Option.map_eq_some_iff.mp found with ⟨group, old, rfl⟩
    refine ⟨⟨group, old, below⟩, not_pending_of_group old ?_⟩
    intro pending
    exact notPending
      ⟨_, found, (Group.pending_ack_iff _ _ _).mpr ⟨pending, same⟩⟩

/-! ## One step -/

theorem books_eq (entries : after.redis.stream.entries =
      state.redis.stream.entries)
    (table : after.db.table = state.db.table)
    (letters : after.redis.deadLetters = state.redis.deadLetters)
    (settled : ∀ id, after.Retired id ↔ state.Retired id) :
    books after = books state :=
  Register.ext entries table letters (Set.ext settled)

theorem retired_iff_of_group_eq
    (same : after.redis.group = state.redis.group) (id : MsgId) :
    after.Retired id ↔ state.Retired id := by
  simp only [State.Retired, State.HandedOut, State.Pending, same]

/-- A step that leaves Redis and the table alone. -/
theorem books_eq_of_redis_eq (redis : after.redis = state.redis)
    (table : after.db.table = state.db.table) :
    books after = books state :=
  books_eq (by rw [redis]) table (by rw [redis])
    (retired_iff_of_group_eq (by rw [redis]))

/-- One more row in the table. -/
theorem step_record {row : StoredTransaction}
    (redis : after.redis = state.redis)
    (table : after.db.table = state.db.table ++ [row])
    (safe : Safe True world after) :
    (contract world).Step (books state) (.record row) (books after) := by
  have reached : books after =
      { books state with table := (books state).table ++ [row] } :=
    Register.ext (by rw [books, redis]; rfl) table (by rw [books, redis]; rfl)
      (Set.ext (retired_iff_of_group_eq (by rw [redis])))
  have newest : row ∈ after.db.table := by
    rw [table]
    exact List.mem_append_right _ (List.mem_singleton_self _)
  rcases explainedBy_of_sourced (safe.db.sourced row newest) with
    ⟨wire, listed, explained⟩
  rw [redis] at listed
  rw [reached]
  refine .record listed explained ?_
  have unique := safe.db.unique
  rw [table, List.map_append, List.nodup_append] at unique
  intro member
  exact unique.2.2 _ member _ (List.mem_singleton_self _) rfl

/-- One more entry in the stream. -/
theorem step_publish {wire : WireFields}
    (entries : after.redis.stream.entries =
      state.redis.stream.entries ++ [wire])
    (table : after.db.table = state.db.table)
    (letters : after.redis.deadLetters = state.redis.deadLetters)
    (group : after.redis.group = state.redis.group) :
    (contract world).Step (books state) (.publish wire) (books after) := by
  have reached : books after =
      { books state with log := (books state).log ++ [wire] } :=
    Register.ext entries table letters
      (Set.ext (retired_iff_of_group_eq group))
  rw [reached]
  exact .publish (books state) wire

/-- A commit makes the open row of its task permanent, or changes nothing. -/
theorem table_of_commit {choice : Choice} {reply : Except PyException Unit}
    (taken : exec world state task .commit choice = some (reply, after)) :
    after.db.table = state.db.table ∨
      ∃ row, after.db.table = state.db.table ++ [row] := by
  rcases exec_commit taken with ⟨_, reached⟩ | ⟨_, reached | reached⟩
  · rw [reached]
    cases found : state.openRow task with
    | none =>
        rw [acknowledged_of_no_openRow found]
        exact Or.inl rfl
    | some entry =>
        rw [acknowledged_of_openRow found]
        exact Or.inr ⟨entry.row, rfl⟩
  · rw [reached]
    exact Or.inl rfl
  · rw [reached]
    cases found : state.openRow task with
    | none =>
        rw [committed_of_no_openRow found]
        exact Or.inl rfl
    | some entry =>
        rw [committed_of_openRow found]
        exact Or.inr ⟨entry.row, rfl⟩

theorem table_of_execute {row : ProcessedTransaction} {choice : Choice}
    {reply : Except PyException Bool}
    (taken : exec world state task (.execute row) choice =
      some (reply, after)) : after.db.table = state.db.table := by
  rcases exec_execute taken with
    ⟨_, _, _, _, _, reached⟩ | ⟨_, _, _, _, reached⟩ | ⟨_, reached⟩
  · rw [reached]
  · rw [reached]
    rfl
  · rw [reached]
    rfl

theorem table_of_observe (state : State) (task : Tid) (note : Note) :
    (observe state task note).db.table = state.db.table := by
  cases note with
  | insertReturned id inserted => rfl
  | _ => rfl

/-- An acknowledgement of a message that is accounted for. -/
theorem step_settle {id : MsgId} (safe : Safe True world state)
    (safeAfter : Safe True world after)
    (reached : after = (Redis.xack state id).2) :
    books after = books state ∨
      ∃ booking, (contract world).Step (books state) booking (books after) := by
  by_cases handedOut : state.HandedOut id
  · by_cases before : state.Retired id
    · left
      rw [reached]
      refine books_eq rfl rfl rfl ?_
      intro other
      constructor
      · intro retired
        rcases retired_or_eq_of_xack retired with old | same
        · exact old
        · rwa [same]
      · exact (grows_xack state id).retired other
    · right
      have retired : after.Retired id := by
        rw [reached]
        exact retired_xack handedOut
      have done := accounted_books
        ((safeAfter.kept trivial).accounted id retired)
      have settles : books after =
          { books state with settled := insert id (books state).settled } := by
        rw [reached]
        refine Register.ext rfl rfl rfl (Set.ext ?_)
        intro other
        constructor
        · intro now
          rcases retired_or_eq_of_xack now with old | same
          · exact Or.inr old
          · exact Or.inl same
        · intro either
          rcases either with same | old
          · rw [same]
            exact retired_xack handedOut
          · exact (grows_xack state id).retired other old
      rcases handedOut with ⟨group, found, below⟩
      have within : id < (books state).log.length :=
        Nat.lt_of_lt_of_le below (safe.counted.bounded group found)
      rw [settles] at done ⊢
      refine ⟨_, .settle within before ?_⟩
      exact done.grow (List.prefix_refl _) (List.prefix_refl _)
        (List.prefix_refl _)
  · left
    rw [reached]
    refine books_eq rfl rfl rfl ?_
    intro other
    constructor
    · intro retired
      rcases retired_or_eq_of_xack retired with old | same
      · exact old
      · rw [same] at retired
        rcases retired.1 with ⟨current, found, below⟩
        rcases Option.map_eq_some_iff.mp found with ⟨group, old, rfl⟩
        exact absurd ⟨group, old, below⟩ handedOut
    · exact (grows_xack state id).retired other

/-- One more dead letter. -/
theorem step_bury {origin : MsgId} {fields : Dict}
    (safe : Safe True world after)
    (reached : after = (Redis.xaddDlq state origin fields).2) :
    (contract world).Step (books state) (.bury ⟨origin, fields⟩)
      (books after) := by
  have newest : (⟨origin, fields⟩ : DeadLetter) ∈ after.redis.deadLetters := by
    rw [reached]
    exact List.mem_append_right _ (List.mem_singleton_self _)
  rcases replayedBy_of_lettered (safe.letters _ newest) with
    ⟨wire, found, replayed⟩
  rw [reached] at found ⊢
  exact .bury found replayed

/-- A step of a task makes at most one entry in the books. -/
theorem books_exec {command : Command} {choice : Choice}
    {reply : Except PyException command.Reply}
    (safe : Safe True world state) (safeAfter : Safe True world after)
    (taken : exec world state task command choice = some (reply, after)) :
    books after = books state ∨
      ∃ booking, (contract world).Step (books state) booking (books after) := by
  have kept := safe.kept trivial
  have grows := exec_grows taken
  by_cases quiet : command.isRedis = false
  · have redis := redis_of_not_isRedis quiet taken
    by_cases steady : command.isDb = false
    · have db := db_of_not_isDb steady taken
      exact Or.inl (books_eq_of_redis_eq redis (by rw [db]))
    · cases command with
      | execute row =>
          exact Or.inl (books_eq_of_redis_eq redis (table_of_execute taken))
      | commit =>
          rcases table_of_commit taken with same | ⟨row, longer⟩
          · exact Or.inl (books_eq_of_redis_eq redis same)
          · exact Or.inr ⟨_, step_record redis longer safeAfter⟩
      | observe note =>
          left
          refine books_eq_of_redis_eq redis ?_
          cases taken
          exact table_of_observe state task note
      | _ => exact absurd rfl steady
  · cases command with
    | xgroupCreate =>
        rcases exec_xgroupCreate taken with same | ⟨none_, created⟩
        · rw [same]
          exact Or.inl rfl
        · left
          rw [created]
          refine books_eq rfl rfl rfl ?_
          intro id
          constructor
          · intro retired
            rcases retired with ⟨⟨group, found, below⟩, _⟩
            cases found
            exact absurd below (Nat.not_lt_zero id)
          · intro retired
            rcases retired with ⟨⟨group, found, _⟩, _⟩
            rw [none_] at found
            cases found
    | xadd fields maxlen =>
        rcases exec_xadd taken with ⟨same, _⟩ | ⟨stream, appended, reached, _⟩
        · rw [same]
          exact Or.inl rfl
        · right
          refine ⟨.publish (encodeFields fields),
            step_publish ?_ (by rw [reached]) (by rw [reached])
              (by rw [reached])⟩
          rw [reached]
          rcases appended with ⟨_, rfl⟩ | ⟨_, _, _, _, rfl⟩
          · rfl
          · rfl
    | xreadgroup count =>
        rcases exec_xreadgroup taken with
          ⟨same, _⟩ | ⟨group, found, reached, _⟩
        · rw [same]
          exact Or.inl rfl
        · left
          rw [reached] at grows ⊢
          exact books_eq rfl rfl rfl fun id =>
            ⟨retired_of_read kept found, grows.retired id⟩
    | xautoclaim minIdleTime startId count =>
        rcases exec_xautoclaim taken with
          ⟨same, _⟩ | ⟨group, found, reached, _⟩
        · rw [same]
          exact Or.inl rfl
        · left
          rw [reached] at grows ⊢
          exact books_eq rfl rfl rfl fun id =>
            ⟨retired_of_claim kept safe.counted found, grows.retired id⟩
    | xpendingRange msgId =>
        rw [(exec_xpendingRange taken).1]
        exact Or.inl rfl
    | xack msgId =>
        rcases settle_state taken with same | reached
        · rw [same]
          exact Or.inl rfl
        · exact step_settle safe safeAfter reached
    | xaddDlq origin fields =>
        rcases settle_state taken with same | reached
        · rw [same]
          exact Or.inl rfl
        · exact Or.inr ⟨_, step_bury safeAfter reached⟩
    | _ => exact absurd rfl quiet

/-- What is no task's own step adds at most an entry to the stream. -/
theorem books_happen {event : Event} {tasks tasksAfter : AppTasks}
    (happened : happen world event state tasks = some (after, tasksAfter)) :
    books after = books state ∨
      ∃ booking, (contract world).Step (books state) booking (books after) := by
  cases event with
  | ask number request =>
      simp only [happen] at happened
      split at happened
      · cases happened
        exact Or.inl rfl
      · cases happened
  | startWorker name =>
      simp only [happen] at happened
      split at happened
      · cases happened
        exact Or.inl rfl
      · cases happened
  | inject fields =>
      cases happened
      exact Or.inr ⟨_, step_publish rfl rfl rfl rfl⟩
  | _ =>
      cases happened
      exact Or.inl rfl

end Steps

/-! ## The refinement -/

/-- Forgetting everything but the books, the whole system is the pipeline: each
step of each run, of whichever task, with whatever failures, kills and
redeliveries, publishes one entry, records one row, buries one entry, settles
one entry, or leaves the books as they are. -/
theorem system_refines_pipeline (world : World) :
    (system world).Refines (sparing True world) start
      (contract world).pipeline books where
  begins := by
    refine Register.ext rfl rfl rfl (Set.ext ?_)
    intro id
    constructor
    · intro retired
      rcases retired with ⟨⟨group, found, _⟩, _⟩
      cases found
    · intro impossible
      cases impossible
  step := by
    intro before after action reaches allowed taken
    have safe := reaches_safe reaches
    have safeAfter := reaches_safe (reaches.step allowed taken)
    cases System.step_cases taken with
    | ran running executed same =>
        rw [same] at safeAfter ⊢
        exact books_exec safe safeAfter executed
    | finished _ same =>
        rw [same]
        exact Or.inl rfl
    | happened occurred => exact books_happen occurred

/-! ## The balance -/

/-- The different ids of the events that were published. -/
def publishedIds (world : World) (state : State) : List String :=
  (state.redis.stream.entries.filterMap (eventId world)).dedup

section Balance

variable {world : World} {permit : AppPermit} {config : AppConfig}

/-- The books of every reachable state are in order. -/
theorem sound_books (reaches : Reaches world (sparing True world) config) :
    (contract world).Sound (books config.shared) :=
  (system_refines_pipeline world).invariant Contract.Sound.start
    (fun _ _ _ sound taken => sound.step taken) reaches

theorem Complete.retired (complete : Complete config.shared)
    (kept : Kept world config.shared) {id : MsgId}
    (within : id < config.shared.redis.stream.entries.length) :
    config.shared.Retired id := by
  by_contra unfinished
  by_cases handedOut : config.shared.HandedOut id
  · exact complete.acknowledged id
      (State.pending_of_not_retired unfinished handedOut)
  · exact complete.delivered id ⟨kept.live id within unfinished, handedOut⟩

/-- When a run is complete, its books balance: there are at most as many rows
as different ids were published, and the ids that are missing are no more than
the dead letters.  With no dead letters the table has exactly one row for each
of them. -/
theorem books_balance (unbounded : world.settings.streamMaxlen = none)
    (reaches : Reaches world permit config)
    (complete : Complete config.shared) :
    config.shared.db.table.length ≤
        (publishedIds world config.shared).length ∧
      (publishedIds world config.shared).length ≤
        config.shared.db.table.length +
          config.shared.redis.deadLetters.length ∧
      (config.shared.redis.deadLetters = [] →
        (config.shared.db.table.map StoredTransaction.id).Perm
          (publishedIds world config.shared)) := by
  have spared := sparing_of_unbounded unbounded reaches
  have sound := sound_books spared
  have settled : ∀ id < (books config.shared).log.length,
      id ∈ (books config.shared).settled :=
    fun id within =>
      complete.retired ((reaches_safe spared).kept trivial) within
  have few := sound.length_table_le
  have many := sound.length_keys_le settled
  refine ⟨few, many, ?_⟩
  intro none_
  have covered : (config.shared.db.table.map StoredTransaction.id).Subperm
      (publishedIds world config.shared) := sound.subperm_keys
  apply covered.perm_of_length_le
  rw [List.length_map]
  have bound : (publishedIds world config.shared).length ≤
      config.shared.db.table.length +
        config.shared.redis.deadLetters.length := many
  rwa [none_, List.length_nil, Nat.add_zero] at bound

end Balance

theorem books_balance_coffee :
    ∃ config, Reaches (coffeeWorld unbounded) Permit.any config ∧
      publishedIds (coffeeWorld unbounded) config.shared = ["coffee"] ∧
        config.shared.redis.deadLetters = [] ∧
          (config.shared.db.table.map StoredTransaction.id).Perm
            (publishedIds (coffeeWorld unbounded) config.shared) := by
  have taken : ((system (coffeeWorld unbounded)).run Guard.any start
      (post 0 coffee {} ++ launch 0 ++
        storeOne 0 (.finite false 11 (-1)))).any (fun config =>
          atRest config.shared &&
            decide (publishedIds (coffeeWorld unbounded) config.shared =
              ["coffee"]) &&
            config.shared.redis.deadLetters.isEmpty) = true := by
    decide +kernel
  rcases reaches_of_run respects_any taken with ⟨config, reaches, shown⟩
  simp only [Bool.and_eq_true, decide_eq_true_eq, List.isEmpty_iff] at shown
  rcases shown with ⟨⟨rest, ids⟩, none_⟩
  have drained : Drained (coffeeWorld unbounded) euroRates config.shared :=
    drained_of_atRest rest
  have complete : Complete config.shared :=
    ⟨drained.delivered, drained.acknowledged⟩
  exact ⟨config, reaches, ids, none_,
    (books_balance rfl reaches complete).2.2 none_⟩

end TxnEvents
