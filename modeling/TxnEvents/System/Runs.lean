import TxnEvents.Api.Routes
import TxnEvents.System.State
import TxnEvents.Worker

/-!
# The whole system

Any number of requests and workers over one Redis and one database.  Clients,
operators and the clock act through `Event`: requests arrive and are dropped,
workers are started and killed, time passes, and other programs may write to
the stream.
-/

namespace TxnEvents

open Effects Streams

inductive Event
  | ask (number : Nat) (request : Request)
  | hangUp (number : Nat)
  | startWorker (name : Nat)
  | kill (name : Nat)
  | tick (milliseconds : Nat)
  | inject (fields : WireFields)

abbrev AppTasks : Type := Tasks appSig Tid

/-- No coroutine of the worker is left. -/
def Idle (tasks : AppTasks) (name : Nat) : Prop :=
  (tasks (.boot name)).isNone ∧ (tasks (.consume name)).isNone ∧
    (tasks (.reclaim name)).isNone

instance (tasks : AppTasks) (name : Nat) : Decidable (Idle tasks name) :=
  inferInstanceAs (Decidable (_ ∧ _ ∧ _))

/-- The tasks without the coroutines of a worker. -/
def withoutWorker (tasks : AppTasks) (name : Nat) : AppTasks :=
  fun task => if task.process = .worker name then none else tasks task

/-- The database drops the transactions of a process that is gone. -/
def State.killWorker (state : State) (name : Nat) : State :=
  { state with
    db.uncommitted :=
      state.db.uncommitted.filter fun entry =>
        entry.task.process ≠ .worker name
    db.receipts :=
      state.db.receipts.filter fun receipt =>
        receipt.task.process ≠ .worker name
    history := .killed name :: state.history }

/-- What follows the return of a coroutine. -/
def next (world : World) (finished : Tid) (tasks : AppTasks) : AppTasks :=
  match finished with
  | .request _ => Function.update tasks finished none
  | .boot name =>
      Function.update
        (Function.update (Function.update tasks finished none)
          (.consume name) (some (consumeRound world)))
        (.reclaim name) (some (reclaimRound world))
  | .consume _ => Function.update tasks finished (some (consumeRound world))
  | .reclaim _ => Function.update tasks finished (some (reclaimRound world))

def happen (world : World) (event : Event) (state : State)
    (tasks : AppTasks) : Option (State × AppTasks) :=
  match event with
  | .ask number request =>
      if (tasks (.request number)).isNone then
        some (state,
          Function.update tasks (.request number)
            (some (serve world request)))
      else none
  | .hangUp number =>
      some (state, Function.update tasks (.request number) none)
  | .startWorker name =>
      if Idle tasks name then
        some (state.setLocal (.worker name) LocalState.fresh,
          Function.update tasks (.boot name) (some (bootWorker world)))
      else none
  | .kill name => some (state.killWorker name, withoutWorker tasks name)
  | .tick milliseconds =>
      some ({ state with redis.now := state.redis.now + milliseconds }, tasks)
  | .inject fields =>
      some ({ state with redis.stream := state.redis.stream.add fields },
        tasks)

abbrev AppSystem : Type := System appSig State Tid Choice Event

def system (world : World) : AppSystem where
  exec := exec world
  next := next world
  env := happen world

abbrev AppConfig : Type := Config appSig State Tid

/-- Nothing published, nothing stored, nothing running. -/
def start : AppConfig :=
  ⟨State.initial, fun _ => none⟩

abbrev AppPermit : Type := Permit appSig State Tid Choice Event

/-- A configuration that some run reaches, all of whose steps are
permitted. -/
abbrev Reaches (world : World) (permit : AppPermit) (config : AppConfig) :
    Prop :=
  (system world).Reachable permit start config

/-! ## Concrete runs -/

abbrev AppAction : Type := Action Tid Choice Event

abbrev AppGuard : Type := Guard appSig State Tid Choice Event

/-- What a guarded run from the start ends in is reachable. -/
theorem reaches_of_run {world : World} {guard : AppGuard}
    {permit : AppPermit} (respects : guard.Respects permit)
    {actions : List AppAction} {shows : AppConfig → Bool}
    (taken :
      ((system world).run guard start actions).any shows = true) :
    ∃ config, Reaches world permit config ∧ shows config = true := by
  cases ran : (system world).run guard start actions with
  | none =>
      rw [ran] at taken
      cases taken
  | some config =>
      rw [ran] at taken
      exact ⟨config, System.Reachable.of_run respects ran, taken⟩

theorem respects_any : (Guard.any : AppGuard).Respects Permit.any :=
  ⟨fun _ _ _ _ _ => trivial, fun _ _ _ => trivial⟩

/-- A world whose JSON codec knows finitely many events. -/
def World.small (settings : Settings)
    (samples : List (TransactionEvent × String))
    (distinct : (samples.map Prod.snd).Nodup)
    (proper : "null" ∉ samples.map Prod.snd) : World where
  settings := settings
  unicode := .ascii
  json := .ofSamples samples distinct proper
  driverText := id
  collation := .codePoints
  localZone := fun _ _ => 0

/-- `count` steps of one task, each with the same choice. -/
def steps (task : Tid) (count : Nat) (choice : Choice) : List AppAction :=
  List.replicate count (.run task choice)

/-- A request to publish, run to its answer. -/
def post (number : Nat) (body : EventBody) (choice : Choice) :
    List AppAction :=
  .env (.ask number (.ingest body)) :: steps (.request number) 4 choice

/-- The start of a worker, up to its loops. -/
def launch (name : Nat) : List AppAction :=
  .env (.startWorker name) :: steps (.boot name) 2 {} ++
    [.finish (.boot name)]

/-- The rate service answers with this rate. -/
def answering (rate : Arith.Decimal) : Choice :=
  { http := .answered ⟨200, "", .ok rate⟩ }

/-- The steps of a consume round that stores one event, up to the note that it
is finished. -/
def storeOne (name : Nat) (rate : Arith.Decimal) : List AppAction :=
  steps (.consume name) 14 (answering rate)

end TxnEvents
