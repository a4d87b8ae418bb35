import TxnEvents.Effects.Interleaving
import TxnEvents.Streams.ConsumerGroup
import TxnEvents.System.Commands

/-!
# The shared state and the effect of commands

Redis, the database, the memory of the processes, and the history of the run.
`exec` says what one command does.  A command that leaves the process may fail
before or after it took effect; what it does when it does take effect follows
the documentation of the service.
-/

namespace TxnEvents

open Effects Arith Python Streams

/-! ## Redis -/

/-- A field name or a value in a stream entry: text, or bytes that are not
UTF-8. -/
inductive WireText
  | text (value : String)
  | invalid (bytes : List Nat)
deriving DecidableEq, Repr

abbrev WireFields : Type := List (WireText × WireText)

namespace WireText

def decode : WireText → Option String
  | text value => some value
  | invalid _ => none

end WireText

def decodePairs : WireFields → Option (List (String × String))
  | [] => some []
  | (key, value) :: rest =>
      match key.decode, value.decode, decodePairs rest with
      | some key, some value, some rest => some ((key, value) :: rest)
      | _, _, _ => none

/-- A stream entry as the client decodes it. -/
def decodeFields (wire : WireFields) : Option Dict :=
  (decodePairs wire).map Dict.ofPairs

def encodeFields (fields : Dict) : WireFields :=
  fields.map fun entry => (.text entry.1, .text entry.2)

/-- An entry of the dead-letter stream, with the message it was written
for. -/
structure DeadLetter where
  origin : MsgId
  fields : Dict
deriving DecidableEq, Repr

structure RedisState where
  stream : Log WireFields
  group : Option Group
  deadLetters : List DeadLetter
  now : Nat

/-! ## The database and the processes -/

/-- A row inserted by a transaction that is still open. -/
structure Uncommitted where
  task : Tid
  row : StoredTransaction
deriving DecidableEq

/-- A commit that was reported as done and whose insert has not returned
yet. -/
structure Receipt where
  task : Tid
  id : String
deriving DecidableEq

structure DbState where
  table : Table
  uncommitted : List Uncommitted
  receipts : List Receipt

structure LocalState where
  cache : String → Option (Decimal × ℚ)
  clock : ClockReading
  counters : Counter → Nat

def LocalState.fresh : LocalState :=
  ⟨fun _ => none, .zero, fun _ => 0⟩

/-! ## The history -/

inductive Happening
  | delivered (task : Tid) (msgId : MsgId)
  | rateAnswered (task : Tid) (currency : String) (rate : Decimal)
  | noted (task : Tid) (note : Note)
  | killed (name : Nat)
deriving DecidableEq

/-- Newest first. -/
abbrev History : Type := List Happening

structure State where
  redis : RedisState
  db : DbState
  memory : Process → LocalState
  history : History

namespace State

def initial : State where
  redis := ⟨Log.empty, none, [], 0⟩
  db := ⟨[], [], []⟩
  memory := fun _ => LocalState.fresh
  history := []

def record (state : State) (happening : Happening) : State :=
  { state with history := happening :: state.history }

/-- Record that the messages were delivered to the task, in this order. -/
def deliver (state : State) (task : Tid) (ids : List MsgId) : State :=
  { state with
    history :=
      (ids.map (Happening.delivered task)).reverse ++ state.history }

/-- The group hands the messages out to the task. -/
def handOut (state : State) (task : Tid) (group : Group)
    (ids : List MsgId) : State :=
  { state with redis.group := some group }.deliver task ids

def setLocal (state : State) (process : Process) (memory : LocalState) :
    State :=
  { state with memory := Function.update state.memory process memory }

/-- Drop what the task has inserted and not committed. -/
def rollback (state : State) (task : Tid) : State :=
  { state with
    db.uncommitted :=
      state.db.uncommitted.filter fun open_ => open_.task ≠ task }

def dropReceipts (state : State) (task : Tid) : State :=
  { state with
    db.receipts :=
      state.db.receipts.filter fun receipt => receipt.task ≠ task }

/-- The fields of a stream entry, as the client decodes them. -/
def entryFields (state : State) (id : MsgId) : Option Dict :=
  state.redis.stream.entries[id]?.bind decodeFields

def decodeEntries (state : State) : List MsgId →
    Option (List (MsgId × Dict))
  | [] => some []
  | id :: rest =>
      match state.entryFields id, state.decodeEntries rest with
      | some fields, some entries => some ((id, fields) :: entries)
      | _, _ => none

end State

/-! ## Choices -/

inductive Fate
  | ok
  | failedBefore (raised : ForeignException)
  | failedAfter (raised : ForeignException)

inductive HttpOutcome
  | raised (error : ForeignException)
  | answered (response : HttpResponse)

/-- The rate service cannot be reached. -/
def serviceDown : HttpOutcome :=
  .raised ⟨{ cls := .requestError, text := "" }, rfl⟩

/-- What the outside decides about one command.  Each command looks at the
parts that concern it. -/
structure Choice where
  fate : Fate := .ok
  trimTo : Nat := 0
  http : HttpOutcome := serviceDown
  clock : ClockReading := .zero
  wallTime : Int := 0
  draw : UnitDraw := .zero

/-- The reply of a command together with the state it leaves. -/
abbrev Effect (α : Type) : Type := Except PyException α × State

def settle {α : Type} (fate : Fate) (before : State) (effect : Effect α) :
    Effect α :=
  match fate with
  | .ok => effect
  | .failedBefore raised => (.error raised.exception, before)
  | .failedAfter raised => (.error raised.exception, effect.2)

/-! ## Redis commands -/

def busyGroup : PyException where
  cls := .responseError
  text := "BUSYGROUP Consumer Group name already exists"

def noGroup : PyException where
  cls := .responseError
  text := "NOGROUP No such key or consumer group"

def invalidArgument (text : String) : PyException where
  cls := .redisError
  text := text

/-- The client refuses a negative `COUNT` of `XAUTOCLAIM`, the server 0. -/
def refusedCount (count : Int) : PyException :=
  if count < 0 then invalidArgument "XPENDING count must be a integer >= 0"
  else { cls := .responseError, text := "COUNT must be > 0" }

def undecodable : PyException where
  cls := .unicodeDecodeError
  text := "'utf-8' codec can't decode bytes: invalid data"

namespace Redis

/-- `XGROUP CREATE stream group 0 MKSTREAM`. -/
def xgroupCreate (state : State) : Effect Unit :=
  match state.redis.group with
  | some _ => (.error busyGroup, state)
  | none => (.ok (), { state with redis.group := some Group.fromStart })

/-- `XADD stream [MAXLEN ~ maxlen] *`. -/
def xadd (state : State) (fields : Dict) (maxlen : Option Int)
    (trimTo : Nat) : Option (Effect MsgId) :=
  let id := state.redis.stream.entries.length
  let longer := state.redis.stream.add (encodeFields fields)
  match maxlen with
  | none => some (.ok id, { state with redis.stream := longer })
  | some limit =>
      if limit < 0 then
        some (.error
          (invalidArgument "XADD maxlen must be non-negative integer"), state)
      else if longer.MayTrim limit.toNat trimTo then
        some (.ok id, { state with redis.stream := longer.trim trimTo })
      else none

/-- `XREADGROUP GROUP group consumer COUNT count STREAMS stream >`. -/
def xreadgroup (state : State) (task : Tid) (count : Int) :
    Effect (List (MsgId × Dict)) :=
  if count < 1 then
    (.error (invalidArgument "XREADGROUP count must be a positive integer"),
      state)
  else
    match state.redis.group with
    | none => (.error noGroup, state)
    | some group =>
        let ids := group.unread state.redis.stream (some count.toNat)
        ((state.decodeEntries ids).elim (.error undecodable) .ok,
          state.handOut task
            (group.read state.redis.stream (some count.toNat)
              state.redis.now) ids)

/-- `XAUTOCLAIM stream group consumer minIdleTime startId COUNT count`. -/
def xautoclaim (state : State) (task : Tid) (minIdleTime : Int)
    (startId : MsgId) (count : Int) : Effect ClaimReply :=
  if minIdleTime < 0 then
    (.error (invalidArgument
      "XAUTOCLAIM min_idle_time must be a nonnegative integer"), state)
  else if count < 1 then
    (.error (refusedCount count), state)
  else
    match state.redis.group with
    | none => (.error noGroup, state)
    | some group =>
        let found :=
          group.claimScan state.redis.stream state.redis.now
            minIdleTime.toNat startId count.toNat
        ((state.decodeEntries found.claimed).elim (.error undecodable)
            fun claimed => .ok ⟨found.cursor, claimed, found.deleted⟩,
          state.handOut task
            (group.claim state.redis.stream state.redis.now
              minIdleTime.toNat startId count.toNat) found.claimed)

/-- `XPENDING stream group msgId msgId 1`. -/
def xpendingRange (state : State) (msgId : MsgId) : Effect (List Nat) :=
  match state.redis.group with
  | none => (.error noGroup, state)
  | some group => (.ok (group.timesDelivered? msgId).toList, state)

/-- `XACK stream group msgId`. -/
def xack (state : State) (msgId : MsgId) : Effect Unit :=
  (.ok (), { state with redis.group := state.redis.group.map (·.ack msgId) })

/-- `XADD stream:dlq *`. -/
def xaddDlq (state : State) (origin : MsgId) (fields : Dict) : Effect Unit :=
  (.ok (),
    { state with
      redis.deadLetters := state.redis.deadLetters ++ [⟨origin, fields⟩] })

end Redis

/-! ## Database commands -/

namespace Db

/-- The statement was refused with this SQLSTATE. -/
def rejected (world : World) (sqlstate : String) : PyException where
  cls := .sqlAlchemyError
  text := world.driverText sqlstate
  origSqlstate := some sqlstate

/-- `INSERT ... ON CONFLICT (id) DO NOTHING RETURNING id`, which waits for an
open transaction that has inserted the same id. -/
def insert (world : World) (state : State) (task : Tid)
    (row : ProcessedTransaction) : Option (Effect Bool) :=
  match row.toColumns (world.localZone task.process) with
  | .error sqlstate =>
      some (.error (rejected world sqlstate), state.rollback task)
  | .ok stored =>
      if stored.id ∈ state.db.table.map StoredTransaction.id then
        some (.ok false, state.rollback task)
      else if ∃ other ∈ state.db.uncommitted,
          other.task ≠ task ∧ other.row.id = stored.id then
        none
      else
        some (.ok true,
          { state with
            db.uncommitted :=
              ⟨task, stored⟩ :: (state.rollback task).db.uncommitted })

/-- A failing statement closes the session, which rolls it back. -/
def execute (world : World) (state : State) (task : Tid)
    (row : ProcessedTransaction) : Fate → Option (Effect Bool)
  | .ok => insert world state task row
  | .failedBefore raised => some (.error raised.exception, state.rollback task)
  | .failedAfter raised => some (.error raised.exception, state.rollback task)

/-- Make the open row of the task permanent. -/
def committed (state : State) (task : Tid) : State :=
  match state.db.uncommitted.find? fun entry => entry.task = task with
  | none => state
  | some entry =>
      { state.rollback task with
        db.table := state.db.table ++ [entry.row] }

/-- The commit is reported as done. -/
def acknowledged (state : State) (task : Tid) : State :=
  match state.db.uncommitted.find? fun entry => entry.task = task with
  | none => state
  | some entry =>
      { committed state task with
        db.receipts := ⟨task, entry.row.id⟩ :: state.db.receipts }

def commit (state : State) (task : Tid) : Fate → Effect Unit
  | .ok => (.ok (), acknowledged state task)
  | .failedBefore raised => (.error raised.exception, state.rollback task)
  | .failedAfter raised => (.error raised.exception, committed state task)

end Db

/-! ## The rate service and the memory of a process -/

/-- The rate in a successful response. -/
def HttpOutcome.rate? : HttpOutcome → Option Decimal
  | .raised _ => none
  | .answered response =>
      if 200 ≤ response.statusCode ∧ response.statusCode < 300 then
        response.rate.toOption
      else none

def httpGet (state : State) (task : Tid) (currency : String)
    (outcome : HttpOutcome) : Effect HttpResponse :=
  ( match outcome with
    | .raised error => .error error.exception
    | .answered response => .ok response,
    match outcome.rate? with
    | some rate => state.record (.rateAnswered task currency rate)
    | none => state )

def cacheSet (state : State) (task : Tid) (currency : String)
    (rate : Decimal) (expiresAt : ℚ) : State :=
  let memory := state.memory task.process
  state.setLocal task.process
    { memory with
      cache := Function.update memory.cache currency (some (rate, expiresAt)) }

def monotonic (state : State) (task : Tid) (reading : ClockReading) :
    Option (Effect ClockReading) :=
  let memory := state.memory task.process
  if reading.value < memory.clock.value then none
  else some (.ok reading,
    state.setLocal task.process { memory with clock := reading })

def inc (state : State) (task : Tid) (counter : Counter) : State :=
  let memory := state.memory task.process
  state.setLocal task.process
    { memory with
      counters :=
        Function.update memory.counters counter (memory.counters counter + 1) }

/-- Record a note.  The return of an insert uses up its receipt. -/
def observe (state : State) (task : Tid) : Note → State
  | .insertReturned id inserted =>
      (state.dropReceipts task).record
        (.noted task (.insertReturned id inserted))
  | note => state.record (.noted task note)

/-- The effect of one command of one task. -/
def exec (world : World) (state : State) (task : Tid) :
    (command : Command) → Choice → Option (Effect command.Reply)
  | .xgroupCreate, choice =>
      some (settle choice.fate state (Redis.xgroupCreate state))
  | .xadd fields maxlen, choice =>
      (Redis.xadd state fields maxlen choice.trimTo).map
        (settle choice.fate state)
  | .xreadgroup count, choice =>
      some (settle choice.fate state (Redis.xreadgroup state task count))
  | .xautoclaim minIdleTime startId count, choice =>
      some (settle choice.fate state
        (Redis.xautoclaim state task minIdleTime startId count))
  | .xpendingRange msgId, choice =>
      some (settle choice.fate state (Redis.xpendingRange state msgId))
  | .xack msgId, choice =>
      some (settle choice.fate state (Redis.xack state msgId))
  | .xaddDlq origin fields, choice =>
      some (settle choice.fate state (Redis.xaddDlq state origin fields))
  | .httpGet currency, choice =>
      some (httpGet state task currency choice.http)
  | .execute row, choice => Db.execute world state task row choice.fate
  | .commit, choice => some (Db.commit state task choice.fate)
  | .select, choice =>
      some (settle choice.fate state (.ok state.db.table, state))
  | .probe, choice => some (settle choice.fate state (.ok (), state))
  | .cacheGet currency, _ =>
      some (.ok ((state.memory task.process).cache currency), state)
  | .cacheSet currency rate expiresAt, _ =>
      some (.ok (), cacheSet state task currency rate expiresAt)
  | .monotonic, choice => monotonic state task choice.clock
  | .utcNow, choice => some (.ok choice.wallTime, state)
  | .random, choice => some (.ok choice.draw, state)
  | .sleep _, _ => some (.ok (), state)
  | .inc counter, _ => some (.ok (), inc state task counter)
  | .observe note, _ => some (.ok (), observe state task note)

end TxnEvents
