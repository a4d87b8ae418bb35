import TxnEvents.Delivery.Batches
import TxnEvents.Delivery.Steady
import TxnEvents.Delivery.Sweeps
import TxnEvents.Effects.Alone
import TxnEvents.Ledger.Determinism

/-!
# A loop alone with healthy services

While every command succeeds and the rate service answers, a delivery always
ends: `handle` returns, and the message has left the pending list.
-/

namespace TxnEvents

open Effects Arith Python Streams App

/-- The response has no rate, and a later one will have none either. -/
def HttpResponse.Refuses (response : HttpResponse) : Prop :=
  response.statusCode < 500 ∧ (HttpOutcome.answered response).rate? = none

/-- The rate service gives the rate it has, or refuses when it has none. -/
def HttpOutcome.Gives (outcome : HttpOutcome) (rates : Rates)
    (currency : String) : Prop :=
  ∃ response, outcome = .answered response ∧
    match rates currency with
    | some rate => response.statusCode = 200 ∧ response.rate = .ok rate
    | none => response.Refuses

/-- Runs in which every command succeeds, the rate service gives these rates,
and operators only kill and start workers. -/
def recovering (rates : Rates) : AppPermit where
  command _ _ command choice := choice.fate = .ok ∧
    ∀ currency, command = .httpGet currency →
      choice.http.Gives rates currency
  env _ event := (∃ name, event = .kill name) ∨
    (∃ name, event = .startWorker name) ∨ ∃ passed, event = .tick passed

section Permits

variable {rates : Rates} {state : State} {task : Tid} {command : Command}
  {choice : Choice}

theorem HttpOutcome.Gives.success {response : HttpResponse} {rate : Decimal}
    {currency : String} (known : rates currency = some rate)
    (status : response.statusCode = 200) (given : response.rate = .ok rate) :
    (HttpOutcome.answered response).Gives rates currency := by
  refine ⟨response, rfl, ?_⟩
  rw [known]
  exact ⟨status, given⟩

theorem HttpOutcome.Gives.refusal {response : HttpResponse}
    {currency : String} (unknown : rates currency = none)
    (refuses : response.Refuses) :
    (HttpOutcome.answered response).Gives rates currency := by
  refine ⟨response, rfl, ?_⟩
  rw [unknown]
  exact refuses

theorem HttpOutcome.Gives.follows {outcome : HttpOutcome} {currency : String}
    (gives : outcome.Gives rates currency) :
    outcome.Follows rates currency := by
  rcases gives with ⟨response, rfl, given⟩
  constructor
  · intro rate found
    cases known : rates currency with
    | none =>
        rw [known] at given
        rw [given.2] at found
        cases found
    | some served =>
        rw [known] at given
        have inRange : 200 ≤ response.statusCode ∧ response.statusCode < 300 := by
          omega
        rw [HttpOutcome.rate?, if_pos inRange, given.2] at found
        exact found
  · intro other same missing
    cases same
    cases known : rates currency with
    | none => rfl
    | some served =>
        rw [known] at given
        rw [given.1] at missing
        cases missing

theorem constantRates_of_recovering
    (permitted : (recovering rates).command state task command choice) :
    (constantRates rates).command state task command choice := by
  cases command with
  | httpGet currency => exact (permitted.2 currency rfl).follows
  | _ => exact trivial

theorem steady_of_recovering
    (permitted : (recovering rates).command state task command choice) :
    steady.command state task command choice := by
  cases command with
  | httpGet currency =>
      rcases permitted.2 currency rfl with ⟨response, answered, given⟩
      refine ⟨response, answered, ?_⟩
      cases known : rates currency with
      | none =>
          rw [known] at given
          exact given.1
      | some served =>
          rw [known] at given
          omega
  | execute row => exact permitted.1
  | commit => exact permitted.1
  | _ => exact trivial

theorem undisturbed_of_recovering
    (permitted : (recovering rates).command state task command choice) :
    undisturbed.command state task command choice :=
  fun _ => permitted.1

end Permits

/-! ## Acknowledgements -/

/-- The messages are acknowledged, and of Redis only the dead letters have
changed otherwise. -/
structure RedisState.Acks (ids : List MsgId) (before after : RedisState) :
    Prop where
  stream : after.stream = before.stream
  now : after.now = before.now
  group : after.group = before.group.map fun group => ids.foldl Group.ack group

namespace RedisState.Acks

variable {first second : List MsgId} {before middle after : RedisState}

theorem refl (redis : RedisState) : Acks [] redis redis where
  stream := rfl
  now := rfl
  group := by
    cases redis.group with
    | none => rfl
    | some group => rfl

theorem append (early : Acks first before middle)
    (late : Acks second middle after) : Acks (first ++ second) before after where
  stream := late.stream.trans early.stream
  now := late.now.trans early.now
  group := by
    rw [late.group, early.group]
    cases before.group with
    | none => rfl
    | some group => simp only [Option.map_some, List.foldl_append]

theorem acked (redis : RedisState) (id : MsgId) :
    Acks [id] redis (redis.acked id) where
  stream := rfl
  now := rfl
  group := rfl

theorem buried (redis : RedisState) (letter : DeadLetter) :
    Acks [letter.origin] redis ((redis.bury letter).acked letter.origin) where
  stream := rfl
  now := rfl
  group := rfl

end RedisState.Acks

section Group

variable {group : Group} {ids : List MsgId}

theorem lastDelivered_foldl_ack (ids : List MsgId) (group : Group) :
    (ids.foldl Group.ack group).lastDelivered = group.lastDelivered := by
  induction ids generalizing group with
  | nil => rfl
  | cons id rest inductionHypothesis =>
      rw [List.foldl_cons, inductionHypothesis]
      rfl

theorem pending_foldl_ack_iff (ids : List MsgId) (group : Group) (id : MsgId) :
    (ids.foldl Group.ack group).Pending id ↔ group.Pending id ∧ id ∉ ids := by
  induction ids generalizing group with
  | nil => simp
  | cons first rest inductionHypothesis =>
      rw [List.foldl_cons, inductionHypothesis, Group.pending_ack_iff,
        List.mem_cons, not_or, and_assoc]

theorem pending_sublist_foldl_ack (ids : List MsgId) (group : Group) :
    (ids.foldl Group.ack group).pending.Sublist group.pending := by
  induction ids generalizing group with
  | nil => exact List.Sublist.refl _
  | cons first rest inductionHypothesis =>
      exact (inductionHypothesis (group.ack first)).trans List.filter_sublist

end Group

/-! ## One delivery -/

section Alone

variable {rates : Rates} {world : World} {task : Tid}
  {before after : State}

/-- Alone, with healthy services. -/
abbrev RunsHealthy (world : World) (rates : Rates) (task : Tid) {α : Type}
    (body : App α) (before : State) (outcome : Except PyException α)
    (after : State) : Prop :=
  RunsAlone world (recovering rates) task body before outcome after

theorem RunsHealthy.undisturbed {α : Type} {body : App α}
    {outcome : Except PyException α}
    (runs : RunsHealthy world rates task body before outcome after) :
    RunsAlone world undisturbed task body before outcome after := by
  refine runs.mono ?_
  intro met command reply left performed
  rcases performed with ⟨choice, permitted, taken⟩
  exact ⟨choice, undisturbed_of_recovering permitted, taken⟩

/-- Processing leaves Redis alone and puts nothing off. -/
theorem runs_process {event : TransactionEvent}
    {ended : Except PyException Outcome}
    (runs : RunsHealthy world rates task (process world event) before ended
      after) :
    after.redis = before.redis ∧
      ∀ error, ended = .error error → error.cls.isTransient = false := by
  constructor
  · let same (state : State) : Prop := state.redis = before.redis
    have begins : same before := rfl
    refine runs.preserves same (works_process world event) ?_ ?_ begins
    · intro first second reached held
      rw [← reached]
      exact held
    · intro met command reply left works performed held
      rcases performed with ⟨choice, _, taken⟩
      exact (redis_of_not_isRedis works.not_isRedis taken).trans held
  · have steadyRun : RunsAlone world steady task (process world event) before
        ended after := by
      refine runs.mono ?_
      intro met command reply left performed
      rcases performed with ⟨choice, permitted, taken⟩
      exact ⟨choice, steady_of_recovering permitted, taken⟩
    have right : (steadily world).wp task (process world event) Lasts before :=
      lasts_process event
    exact (Discipline.runs_of_wp trivial right steadyRun).1

theorem runs_observe {note : Note} {outcome : Except PyException Unit}
    (runs : RunsHealthy world rates task (App.observe note) before outcome
      after) : outcome = .ok () ∧ after.redis = before.redis := by
  rcases runs.perform with ⟨met, left, rfl, performed, rfl⟩
  refine ⟨?_, redis_of_observe performed⟩
  rcases performed with ⟨choice, _, taken⟩
  cases taken
  rfl

theorem runs_inc {counter : Counter} {outcome : Except PyException Unit}
    (runs : RunsHealthy world rates task (App.inc counter) before outcome
      after) : outcome = .ok () ∧ after.redis = before.redis := by
  rcases runs.perform with ⟨met, left, rfl, ⟨choice, _, taken⟩, rfl⟩
  cases taken
  exact ⟨rfl, rfl⟩

theorem runs_xack {id : MsgId} {outcome : Except PyException Unit}
    (runs : RunsHealthy world rates task (xack id) before outcome after) :
    outcome = .ok () ∧ RedisState.Acks [id] before.redis after.redis := by
  rcases runs.perform with ⟨met, left, rfl, ⟨choice, fine, taken⟩, rfl⟩
  have executed : exec world before task (.xack id) choice =
      some (outcome, left) := taken
  rw [exec, fine.1] at executed
  rcases settle_of_ok executed with ⟨same, reached⟩
  rw [reached]
  exact ⟨same, RedisState.Acks.acked before.redis id⟩

/-- The dead-letter path, to its end. -/
theorem acks_deadLetterFields {id : MsgId} {fields : Dict} {reason : String}
    {outcome : Except PyException Unit}
    (runs : RunsHealthy world rates task (deadLetterFields id fields reason)
      before outcome after) :
    outcome = .ok () ∧ RedisState.Acks [id] before.redis after.redis := by
  have returned := deadLetterFields_returns runs.undisturbed
  rw [returned] at runs
  rw [runs_deadLetterFields runs]
  exact ⟨returned, RedisState.Acks.buried before.redis
    ⟨id, fields.set "reason" reason⟩⟩

/-- Dead-letter a message and count it. -/
theorem acks_bury {msg : StreamMessage} {reason : String} {kind : FailureKind}
    {outcome : Except PyException Unit}
    (runs : RunsHealthy world rates task
      ((deadLetter msg reason).bind fun _ => App.inc (.eventsFailed kind))
      before outcome after) :
    outcome = .ok () ∧
      RedisState.Acks [msg.msgId] before.redis after.redis := by
  rcases Prog.Runs.bind Eq.refl runs with
    ⟨_, middle, burying, counting⟩ | ⟨_, _, failed⟩
  · rcases runs_inc counting with ⟨returned, same⟩
    rw [same]
    exact ⟨returned, (acks_deadLetterFields burying).2⟩
  · cases (acks_deadLetterFields failed).1

/-- A failure that lasts is dead-lettered. -/
theorem acks_handleFailure {msg : StreamMessage} {exc : PyException}
    {outcome : Except PyException Unit}
    (lasting : exc.cls.isTransient = false)
    (runs : RunsHealthy world rates task (handleFailure world msg exc) before
      outcome after) :
    outcome = .ok () ∧
      RedisState.Acks [msg.msgId] before.redis after.redis := by
  unfold handleFailure at runs
  split at runs
  case isTrue => exact acks_bury runs
  case isFalse =>
    rw [if_neg (by simp [lasting])] at runs
    exact acks_bury runs

/-- Processing and the acknowledgement, or a failure that lasts. -/
theorem runs_processAndAck {msg : StreamMessage}
    {outcome : Except PyException Unit}
    (runs : RunsHealthy world rates task (processAndAck world msg) before
      outcome after) :
    outcome = .ok () ∧ RedisState.Acks [msg.msgId] before.redis after.redis ∨
      after.redis = before.redis ∧ ∃ error, outcome = .error error ∧
        error.cls.isTransient = false := by
  rcases Prog.Runs.bind Eq.refl runs with
    ⟨ended, middle, attempting, noting⟩ | ⟨_, _, failed⟩
  · rcases attempting.attempt with ⟨result, same, processing⟩
    cases same
    rcases runs_process processing with ⟨untouched, lasting⟩
    rcases Prog.Runs.bind Eq.refl noting with
      ⟨_, noted, observing, acking⟩ | ⟨_, _, failed⟩
    · have unmoved := (runs_observe observing).2.trans untouched
      rw [← unmoved]
      cases ended with
      | error error =>
          rcases acking.raise with ⟨raised, same⟩
          rw [← same]
          exact Or.inr ⟨rfl, error, raised, lasting error rfl⟩
      | ok result =>
          have going : RunsHealthy world rates task
              ((xack msg.msgId).bind fun _ =>
                App.inc (.eventsProcessed result)) noted outcome after := acking
          rcases Prog.Runs.bind Eq.refl going with
            ⟨_, acked, acknowledging, counting⟩ | ⟨_, _, failed⟩
          · rcases runs_inc counting with ⟨returned, same⟩
            rw [same]
            exact Or.inl ⟨returned, (runs_xack acknowledging).2⟩
          · cases (runs_xack failed).1
    · cases (runs_observe failed).1
  · rcases failed.attempt with ⟨_, impossible, _⟩
    cases impossible

/-- The delivery comes to its end, and the message has left the pending
list. -/
theorem runs_handle {msg : StreamMessage}
    {outcome : Except PyException Unit}
    (runs : RunsHealthy world rates task (handle world msg) before outcome
      after) :
    outcome = .ok () ∧
      RedisState.Acks [msg.msgId] before.redis after.redis := by
  rcases Prog.Runs.bind Eq.refl runs with
    ⟨_, noted, starting, trying⟩ | ⟨_, _, failed⟩
  · rw [← (runs_observe starting).2]
    rcases Prog.Runs.bind Eq.refl trying with
      ⟨_, settled, deciding, finishing⟩ | ⟨_, _, failed⟩
    · rcases runs_observe finishing with ⟨returned, same⟩
      rw [same]
      refine ⟨returned, ?_⟩
      rcases deciding.tryExcept Eq.refl with
        ⟨_, _, processing⟩ | ⟨error, middle, processing, handling⟩
      · rcases runs_processAndAck processing with
          ⟨_, acked⟩ | ⟨_, _, impossible, _⟩
        · exact acked
        · cases impossible
      · rcases runs_processAndAck processing with
          ⟨impossible, _⟩ | ⟨untouched, _, same, lasting⟩
        · cases impossible
        · cases same
          rw [← untouched]
          exact (acks_handleFailure lasting handling).2
    · rcases failed.tryExcept Eq.refl with
        ⟨_, impossible, _⟩ | ⟨error, middle, processing, handling⟩
      · cases impossible
      · rcases runs_processAndAck processing with
          ⟨impossible, _⟩ | ⟨_, _, same, lasting⟩
        · cases impossible
        · cases same
          cases (acks_handleFailure lasting handling).1
  · cases (runs_observe failed).1

/-! ## One batch -/

/-- Every delivery of a batch, by induction on the batch. -/
theorem runs_handleAll {messages : List StreamMessage}
    {outcome : Except PyException Unit}
    (runs : RunsHealthy world rates task
      (Prog.forEach messages (handle world)) before outcome after) :
    outcome = .ok () ∧
      RedisState.Acks (messages.map StreamMessage.msgId) before.redis
        after.redis := by
  induction messages generalizing before outcome with
  | nil =>
      rcases runs.ret with ⟨returned, same⟩
      rw [same]
      exact ⟨returned, RedisState.Acks.refl after.redis⟩
  | cons msg rest inductionHypothesis =>
      rcases Prog.Runs.bind Eq.refl runs with
        ⟨_, middle, handling, later⟩ | ⟨_, _, failed⟩
      · rcases inductionHypothesis later with ⟨returned, others⟩
        exact ⟨returned, (runs_handle handling).2.append others⟩
      · cases (runs_handle failed).1

/-- Parsing acknowledges the entries that it does not return. -/
theorem acks_parseEntries {deliveryCounts : MsgId → Nat}
    {entries : List (MsgId × Dict)} {messages : List StreamMessage}
    (runs : RunsHealthy world rates task
      (parseEntries world deliveryCounts entries) before (.ok messages)
      after) :
    ∃ buried, RedisState.Acks buried before.redis after.redis ∧
      ∀ id, id ∈ entries.map Prod.fst ↔
        id ∈ buried ∨ id ∈ messages.map StreamMessage.msgId := by
  induction entries generalizing before messages with
  | nil =>
      rcases runs.ret with ⟨returned, same⟩
      cases returned
      rw [same]
      exact ⟨[], RedisState.Acks.refl after.redis, by simp⟩
  | cons entry rest inductionHypothesis =>
      rcases entry with ⟨msgId, fields⟩
      rw [parseEntries] at runs
      split at runs
      case h_1 exc failed =>
        rw [if_pos (isParseError_of_parseFields failed)] at runs
        rcases Prog.Runs.bind Eq.refl runs with
          ⟨_, lettered, lettering, finishing⟩ | ⟨_, impossible, _⟩
        · rcases Prog.Runs.bind Eq.refl finishing with
            ⟨_, noted, noting, parsing⟩ | ⟨_, impossible, _⟩
          · rcases inductionHypothesis parsing with ⟨buried, acked, covers⟩
            rw [(runs_observe noting).2] at acked
            refine ⟨[msgId] ++ buried,
              (acks_deadLetterFields lettering).2.append acked, ?_⟩
            intro id
            rw [List.map_cons, List.mem_cons, covers, List.singleton_append,
              List.mem_cons, or_assoc]
          · cases impossible
        · cases impossible
      case h_2 event parsed =>
        rcases Prog.Runs.bind Eq.refl runs with
          ⟨others, middle, parsing, returning⟩ | ⟨_, impossible, _⟩
        · rcases returning.ret with ⟨returned, same⟩
          cases returned
          rw [same] at parsing
          rcases inductionHypothesis parsing with ⟨buried, acked, covers⟩
          refine ⟨buried, acked, ?_⟩
          intro id
          rw [List.map_cons, List.mem_cons, covers, List.map_cons,
            List.mem_cons, or_left_comm]
        · cases impossible

/-- Exactly these messages have left the pending list. -/
def RedisState.Settles (ids : List MsgId) (before after : RedisState) : Prop :=
  ∃ done, RedisState.Acks done before after ∧ ∀ id, id ∈ ids ↔ id ∈ done

theorem settles_batch {deliveryCounts : MsgId → Nat} {middle : State}
    {entries : List (MsgId × Dict)} {messages : List StreamMessage}
    {outcome : Except PyException Unit}
    (parsing : RunsHealthy world rates task
      (parseEntries world deliveryCounts entries) before (.ok messages)
      middle)
    (handling : RunsHealthy world rates task
      (Prog.forEach messages (handle world)) middle outcome after) :
    RedisState.Settles (entries.map Prod.fst) before.redis after.redis := by
  rcases acks_parseEntries parsing with ⟨buried, acked, covers⟩
  refine ⟨_, acked.append (runs_handleAll handling).2, ?_⟩
  intro id
  rw [covers, List.mem_append]

/-! ## One round -/

/-- Every entry of the stream is text. -/
def Legible (state : State) : Prop :=
  ∀ id < state.redis.stream.entries.length,
    (state.entryFields id).isSome = true

theorem Legible.decodes {state : State} (legible : Legible state)
    {ids : List MsgId}
    (within : ∀ id ∈ ids, id < state.redis.stream.entries.length) :
    ∃ entries, state.decodeEntries ids = some entries := by
  induction ids with
  | nil => exact ⟨[], rfl⟩
  | cons id rest inductionHypothesis =>
      rw [List.forall_mem_cons] at within
      rcases Option.isSome_iff_exists.mp (legible id within.1) with
        ⟨fields, found⟩
      rcases inductionHypothesis within.2 with ⟨entries, decoded⟩
      exact ⟨(id, fields) :: entries, by
        rw [State.decodeEntries, found, decoded]⟩

theorem Legible.of_stream_eq {state later : State}
    (legible : Legible state)
    (same : later.redis.stream = state.redis.stream) : Legible later := by
  intro id within
  rw [same] at within
  have found := legible id within
  rw [State.entryFields] at found ⊢
  rwa [same]

/-- What one round has done: handed out some messages, and settled them. -/
structure Round (ids : List MsgId) (handedOut : Group) (before after : State) :
    Prop where
  settles : RedisState.Settles ids
    { before.redis with group := some handedOut } after.redis

namespace Round

variable {ids : List MsgId} {handedOut : Group}

theorem stream (round : Round ids handedOut before after) :
    after.redis.stream = before.redis.stream := by
  rcases round.settles with ⟨done, acked, _⟩
  exact acked.stream

theorem now (round : Round ids handedOut before after) :
    after.redis.now = before.redis.now := by
  rcases round.settles with ⟨done, acked, _⟩
  exact acked.now

/-- The group after the round. -/
theorem group (round : Round ids handedOut before after) :
    ∃ group, after.redis.group = some group ∧
      group.lastDelivered = handedOut.lastDelivered ∧
      group.pending.Sublist handedOut.pending ∧
      ∀ id, group.Pending id ↔ handedOut.Pending id ∧ id ∉ ids := by
  rcases round.settles with ⟨done, acked, covers⟩
  refine ⟨done.foldl Group.ack handedOut, acked.group,
    lastDelivered_foldl_ack done handedOut,
    pending_sublist_foldl_ack done handedOut, ?_⟩
  intro id
  rw [pending_foldl_ack_iff, covers]

end Round

/-- The entries that Redis hands out to one call, and what parsing makes of
them. -/
structure Obtains (world : World) (rates : Rates) (task : Tid)
    (ids : List MsgId) (handedOut : Group) (before : State)
    (outcome : Except PyException (List StreamMessage)) (after : State) :
    Prop where
  parsing : ∃ deliveryCounts entries messages left,
    outcome = .ok messages ∧ entries.map Prod.fst = ids ∧
      left.redis = { before.redis with group := some handedOut } ∧
      RunsHealthy world rates task (parseEntries world deliveryCounts entries)
        left (.ok messages) after

section Rounds

variable {group : Group}

theorem obtains_parsed {ids : List MsgId} {handedOut : Group}
    {deliveryCounts : MsgId → Nat} {entries : List (MsgId × Dict)}
    {left : State} {outcome : Except PyException (List StreamMessage)}
    (listed : entries.map Prod.fst = ids)
    (reached : left.redis = { before.redis with group := some handedOut })
    (runs : RunsHealthy world rates task
      (parseEntries world deliveryCounts entries) left outcome after) :
    Obtains world rates task ids handedOut before outcome after := by
  rcases parseEntries_returns runs.undisturbed with ⟨messages, same⟩
  rw [same] at runs ⊢
  exact ⟨deliveryCounts, entries, messages, left, rfl, listed, reached, runs⟩

theorem obtains_nothing {handedOut : Group} {left : State}
    {outcome : Except PyException (List StreamMessage)}
    (reached : left.redis = { before.redis with group := some handedOut })
    (runs : RunsHealthy world rates task (Prog.ret []) left outcome after) :
    Obtains world rates task [] handedOut before outcome after := by
  have parsing : RunsHealthy world rates task
      (parseEntries world (fun _ => 1) []) left outcome after := runs
  exact obtains_parsed rfl reached parsing

theorem runs_read {outcome : Except PyException (List StreamMessage)}
    (found : before.redis.group = some group)
    (batch : 1 ≤ world.settings.batchSize) (legible : Legible before)
    (runs : RunsHealthy world rates task (read world) before outcome after) :
    Obtains world rates task
      (group.unread before.redis.stream (some world.settings.batchSize.toNat))
      (group.read before.redis.stream (some world.settings.batchSize.toNat)
        before.redis.now)
      before outcome after := by
  have within : ∀ id ∈ group.unread before.redis.stream
      (some world.settings.batchSize.toNat),
        id < before.redis.stream.entries.length :=
    fun id member => (Group.mem_unread member).2.2
  rcases legible.decodes within with ⟨entries, decoded⟩
  have listed := decodeEntries_ids decoded
  have asked : ∀ {reply left},
      RunsHealthy world rates task
          (App.xreadgroup world.settings.batchSize) before reply left →
        reply = .ok entries ∧ left.redis =
          { before.redis with
            group := some (group.read before.redis.stream
              (some world.settings.batchSize.toNat) before.redis.now) } := by
    intro reply left asking
    rcases asking.perform with ⟨met, reached, rfl, ⟨choice, fine, taken⟩, rfl⟩
    have executed : exec world before task
        (.xreadgroup world.settings.batchSize) choice =
          some (reply, reached) := taken
    rw [exec, fine.1] at executed
    rcases settle_of_ok executed with ⟨same, moved⟩
    have positive : ¬ world.settings.batchSize < 1 := by omega
    simp only [Redis.xreadgroup, if_neg positive, found, decoded] at same moved
    rw [moved]
    exact ⟨same, rfl⟩
  rcases Prog.Runs.bind Eq.refl runs with
    ⟨_, left, asking, parsing⟩ | ⟨_, _, asking⟩
  · rcases asked asking with ⟨same, reached⟩
    cases same
    split at parsing
    case isTrue empty =>
      rw [← listed, List.isEmpty_iff.mp empty]
      exact obtains_nothing reached parsing
    case isFalse => exact obtains_parsed listed reached parsing
  · cases (asked asking).1

theorem runs_claim {outcome : Except PyException (List StreamMessage)}
    (found : before.redis.group = some group)
    (batch : 1 ≤ world.settings.batchSize)
    (nonnegative : 0 ≤ world.settings.minIdleMs) (legible : Legible before)
    (runs : RunsHealthy world rates task
      (claimStale world world.settings.minIdleMs) before outcome after) :
    Obtains world rates task
      (group.claimScan before.redis.stream before.redis.now
        world.settings.minIdleMs.toNat 0
        world.settings.batchSize.toNat).claimed
      (group.claim before.redis.stream before.redis.now
        world.settings.minIdleMs.toNat 0 world.settings.batchSize.toNat)
      before outcome after := by
  have within : ∀ id ∈ (group.claimScan before.redis.stream before.redis.now
      world.settings.minIdleMs.toNat 0
      world.settings.batchSize.toNat).claimed,
        id < before.redis.stream.entries.length :=
    fun id member => (Group.live_of_claimed member).2
  rcases legible.decodes within with ⟨entries, decoded⟩
  have listed := decodeEntries_ids decoded
  have asked : ∀ {reply left},
      RunsHealthy world rates task
          (App.xautoclaim world.settings.minIdleMs 0 world.settings.batchSize)
          before reply left →
        left.redis =
            { before.redis with
              group := some (group.claim before.redis.stream before.redis.now
                world.settings.minIdleMs.toNat 0
                world.settings.batchSize.toNat) } ∧
          ∃ answer, reply = .ok answer ∧ answer.claimed = entries := by
    intro reply left asking
    rcases asking.perform with ⟨met, reached, rfl, ⟨choice, fine, taken⟩, rfl⟩
    have executed : exec world before task
        (.xautoclaim world.settings.minIdleMs 0 world.settings.batchSize)
        choice = some (reply, reached) := taken
    rw [exec, fine.1] at executed
    rcases settle_of_ok executed with ⟨same, moved⟩
    have notNegative : ¬ world.settings.minIdleMs < 0 := by omega
    have positive : ¬ world.settings.batchSize < 1 := by omega
    simp only [Redis.xautoclaim, if_neg notNegative, if_neg positive, found,
      decoded] at same moved
    rw [moved]
    exact ⟨rfl, _, same, rfl⟩
  rcases Prog.Runs.bind Eq.refl runs with
    ⟨_, left, asking, parsing⟩ | ⟨_, _, asking⟩
  · rcases asked asking with ⟨reached, answer, same, equality⟩
    cases same
    rw [equality] at parsing
    split at parsing
    case isTrue empty =>
      rw [← listed, List.isEmpty_iff.mp empty]
      exact obtains_nothing reached parsing
    case isFalse =>
      have grouped : left.redis.group = some (group.claim before.redis.stream
          before.redis.now world.settings.minIdleMs.toNat 0
          world.settings.batchSize.toNat) := by
        rw [reached]
      rcases Prog.Runs.bind Eq.refl parsing with
        ⟨counts, counted, counting, parsed⟩ | ⟨_, _, counting⟩
      · rw [(runs_lookUpCounts grouped
          (RunsHealthy.undisturbed counting)).2] at parsed
        exact obtains_parsed listed reached parsed
      · rcases (runs_lookUpCounts grouped
          (RunsHealthy.undisturbed counting)).1 with ⟨_, impossible⟩
        cases impossible
  · rcases (asked asking).2 with ⟨_, impossible, _⟩
    cases impossible

/-- Fetching a batch and handling it. -/
theorem round_of_obtains {ids : List MsgId} {handedOut : Group}
    {fetch : App (List StreamMessage)} {outcome : Except PyException Unit}
    (obtains : ∀ {fetched middle},
      RunsHealthy world rates task fetch before fetched middle →
        Obtains world rates task ids handedOut before fetched middle)
    (runs : RunsHealthy world rates task
      (fetch.bind fun messages => Prog.forEach messages (handle world)) before
      outcome after) :
    outcome = .ok () ∧ Round ids handedOut before after := by
  rcases Prog.Runs.bind Eq.refl runs with
    ⟨messages, middle, fetching, handling⟩ | ⟨_, _, failed⟩
  · refine ⟨(runs_handleAll handling).1, ?_⟩
    rcases (obtains fetching).parsing with
      ⟨counts, entries, parsed, left, same, listed, reached, parsing⟩
    cases same
    constructor
    rw [← reached, ← listed]
    exact settles_batch parsing handling
  · rcases (obtains failed).parsing with ⟨_, _, _, _, impossible, _⟩
    cases impossible

/-- A round of the consume loop reads new messages and settles them. -/
theorem runs_consumeRound {outcome : Except PyException Unit}
    (found : before.redis.group = some group)
    (batch : 1 ≤ world.settings.batchSize) (legible : Legible before)
    (runs : RunsHealthy world rates task (consumeRound world) before outcome
      after) :
    outcome = .ok () ∧
      Round
        (group.unread before.redis.stream
          (some world.settings.batchSize.toNat))
        (group.read before.redis.stream
          (some world.settings.batchSize.toNat) before.redis.now)
        before after :=
  round_of_obtains (runs_read found batch legible) runs

/-- A round of the reclaim loop claims idle messages and settles them. -/
theorem runs_reclaimRound {outcome : Except PyException Unit}
    (found : before.redis.group = some group)
    (batch : 1 ≤ world.settings.batchSize)
    (nonnegative : 0 ≤ world.settings.minIdleMs) (legible : Legible before)
    (runs : RunsHealthy world rates task (reclaimRound world) before outcome
      after) :
    outcome = .ok () ∧
      Round
        (group.claimScan before.redis.stream before.redis.now
          world.settings.minIdleMs.toNat 0
          world.settings.batchSize.toNat).claimed
        (group.claim before.redis.stream before.redis.now
          world.settings.minIdleMs.toNat 0 world.settings.batchSize.toNat)
        before after := by
  rcases Prog.Runs.bind Eq.refl runs with
    ⟨_, slept, sleeping, claiming⟩ | ⟨_, _, failed⟩
  · rcases sleeping.perform with ⟨met, left, same, ⟨choice, _, taken⟩, equal⟩
    cases taken
    cases same
    cases equal
    exact round_of_obtains (runs_claim found batch nonnegative legible) claiming
  · rcases failed.perform with ⟨met, left, _, ⟨choice, _, taken⟩, _⟩
    cases taken

end Rounds

/-! ## The start of a worker -/

/-- The database answers the first probe. -/
theorem runs_waitUntilReady {outcome : Except PyException Unit}
    (runs : RunsHealthy world rates task (waitUntilReady world) before outcome
      after) : outcome = .ok () ∧ after.redis = before.redis := by
  have probed : ∀ {handler : PyException → App Unit} {reply left},
      RunsHealthy world rates task (probe.tryExcept handler) before reply
          left →
        reply = .ok () ∧ left.redis = before.redis := by
    intro handler reply left probing
    have answered : ∀ {ended reached},
        RunsHealthy world rates task probe before ended reached →
          ended = .ok () ∧ reached = before := by
      intro ended reached asking
      rcases asking.perform with ⟨met, moved, rfl, ⟨choice, fine, taken⟩, rfl⟩
      have executed : exec world before task .probe choice =
          some (ended, moved) := taken
      rw [exec, fine.1] at executed
      exact settle_of_ok executed
    rcases probing.tryExcept Eq.refl with
      ⟨_, same, asking⟩ | ⟨error, middle, asking, _⟩
    · rw [(answered asking).2]
      exact ⟨same, rfl⟩
    · cases (answered asking).1
  have positive := world.settings.dbStartupAttempts_pos
  have enough : ¬ (world.settings.dbStartupAttempts : Int) < 1 := by omega
  rcases Nat.exists_eq_add_of_le' positive with ⟨more, attempts⟩
  rw [waitUntilReady, retryAsync, if_neg enough, Int.toNat_natCast, attempts,
    retryFrom] at runs
  rcases Prog.Runs.bind Eq.refl runs with
    ⟨_, middle, trying, returning⟩ | ⟨_, _, failed⟩
  · rcases returning.ret with ⟨returned, same⟩
    rw [← same]
    refine ⟨returned, ?_⟩
    rcases Prog.Runs.bind Eq.refl trying with
      ⟨_, _, attempting, going⟩ | ⟨_, impossible, _⟩
    · rcases attempting.attempt with ⟨ended, same, probing⟩
      rcases probed probing with ⟨answered, unmoved⟩
      cases same
      rw [answered] at going
      rw [← going.ret.2]
      exact unmoved
    · cases impossible
  · rcases Prog.Runs.bind Eq.refl failed with
      ⟨_, _, attempting, going⟩ | ⟨_, _, attempting⟩
    · rcases attempting.attempt with ⟨ended, same, probing⟩
      cases same
      rw [(probed probing).1] at going
      cases going.ret.1
    · rcases attempting.attempt with ⟨_, impossible, _⟩
      cases impossible

/-- The group is there afterwards, as it was if it was there before. -/
theorem runs_ensureGroup {outcome : Except PyException Unit}
    (runs : RunsHealthy world rates task ensureGroup before outcome after) :
    outcome = .ok () ∧ after.redis =
      { before.redis with
        group := some (before.redis.group.getD Group.fromStart) } := by
  have created : ∀ {reply left},
      RunsHealthy world rates task App.xgroupCreate before reply left →
        (reply = .ok () ∨ reply = .error busyGroup) ∧ left.redis =
          { before.redis with
            group := some (before.redis.group.getD Group.fromStart) } := by
    intro reply left asking
    rcases asking.perform with ⟨met, moved, rfl, ⟨choice, fine, taken⟩, rfl⟩
    have executed : exec world before task .xgroupCreate choice =
        some (reply, moved) := taken
    rw [exec, fine.1] at executed
    rcases settle_of_ok executed with ⟨same, reached⟩
    rw [Redis.xgroupCreate] at same reached
    cases found : before.redis.group with
    | none =>
        rw [found] at same reached
        rw [reached]
        exact ⟨Or.inl same, rfl⟩
    | some group =>
        rw [found] at same reached
        have unmoved : moved = before := reached
        rw [unmoved, Option.getD_some, ← found]
        exact ⟨Or.inr same, rfl⟩
  rcases runs.tryExcept Eq.refl with
    ⟨_, same, asking⟩ | ⟨error, middle, asking, handling⟩
  · exact ⟨same, (created asking).2⟩
  · rcases created asking with ⟨impossible | busy, reached⟩
    · cases impossible
    · cases busy
      have listed : busyGroup.cls = .responseError ∧
          contains busyGroup.text "BUSYGROUP" = true := by
        decide
      rw [if_pos listed] at handling
      rcases handling.ret with ⟨returned, same⟩
      rw [← same]
      exact ⟨returned, reached⟩

theorem runs_bootWorker {outcome : Except PyException Unit}
    (runs : RunsHealthy world rates task (bootWorker world) before outcome
      after) :
    outcome = .ok () ∧ after.redis =
      { before.redis with
        group := some (before.redis.group.getD Group.fromStart) } := by
  rcases Prog.Runs.bind Eq.refl runs with
    ⟨_, middle, waiting, ensuring⟩ | ⟨_, _, failed⟩
  · have same := (runs_waitUntilReady waiting).2
    have ensured := runs_ensureGroup ensuring
    rw [same] at ensured
    exact ensured
  · cases (runs_waitUntilReady failed).1

end Alone

end TxnEvents
