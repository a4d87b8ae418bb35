import TxnEvents.Core.Config
import TxnEvents.Db.Queries
import TxnEvents.Effects.Program
import TxnEvents.Python.Float

/-!
# What the processes ask of the outside

Every await of the program, and every read or write of state that several
coroutines share, is one command: Redis, the rate service, the database, the
rate cache, the clocks, the random numbers and the counters.  `observe` marks
a point of the program in the history of a run and does nothing else.
-/

namespace TxnEvents

open Effects Arith Python

/-- A stream id, as the position of the entry. -/
abbrev MsgId : Type := Nat

inductive Process
  | api
  | worker (name : Nat)
deriving DecidableEq, Repr

/-- The coroutines of the two kinds of processes. -/
inductive Tid
  | request (number : Nat)
  | boot (name : Nat)
  | consume (name : Nat)
  | reclaim (name : Nat)
deriving DecidableEq, Repr

namespace Tid

def process : Tid → Process
  | request _ => .api
  | boot name => .worker name
  | consume name => .worker name
  | reclaim name => .worker name

end Tid

/-- What the model takes as given. -/
structure World where
  settings : Settings
  unicode : UnicodeData
  json : JsonCodec
  /-- The driver's message for a rejected statement. -/
  driverText : String → String
  collation : Collation
  localZone : Process → LocalZone

/-! ## Requests and responses -/

/-- The parameters of `GET /users/{user_id}/transactions`. -/
structure TransactionsQuery where
  userId : String
  start : Option DateTime
  stop : Option DateTime
  limit : Nat
  limitBounds : 1 ≤ limit ∧ limit ≤ 500
  offset : Nat
deriving DecidableEq

inductive Request
  | ingest (body : EventBody)
  | summary (userId : String)
  | transactions (query : TransactionsQuery)
deriving DecidableEq

structure AcceptedResponse where
  eventId : String
  streamId : MsgId
deriving DecidableEq, Repr

@[ext]
structure UserSummary where
  userId : String
  totalUsd : Decimal
  totalFinite : totalUsd.isFinite = true
  transactionCount : Nat

instance : DecidableEq UserSummary := fun _ _ =>
  decidable_of_iff' _ UserSummary.ext_iff

structure TransactionOut where
  id : String
  userId : String
  amount : Decimal
  currency : String
  rate : Decimal
  amountUsd : Decimal
  timestamp : Int
deriving DecidableEq, Repr

structure TransactionPage where
  items : List TransactionOut
  total : Nat
  limit : Nat
  offset : Nat
deriving DecidableEq, Repr

inductive Response
  | accepted (response : AcceptedResponse)
  | summary (response : UserSummary)
  | page (response : TransactionPage)
deriving DecidableEq

/-! ## Metrics -/

inductive Outcome
  | processed
  | duplicate
deriving DecidableEq, Repr

inductive FailureKind
  | transient
  | permanent
  | exhausted
  | unexpected
deriving DecidableEq, Repr

inductive RetriedOperation
  | rateLookup
  | dbInsert
deriving DecidableEq, Repr

inductive Counter
  | eventsPublished
  | eventsProcessed (outcome : Outcome)
  | eventsFailed (kind : FailureKind)
  | retries (operation : RetriedOperation)
deriving DecidableEq, Repr

/-! ## Commands -/

/-- The points of the program that a history records. -/
inductive Note
  | processStarted (msgId : MsgId) (deliveryCount : Nat)
  | processEnded (msgId : MsgId) (outcome : Except PyException Outcome)
  | insertReturned (id : String) (inserted : Bool)
  | deadLettering (msgId : MsgId) (reason : String)
  | finished (msgId : MsgId)
  | answered (request : Request) (response : Except PyException Response)
deriving DecidableEq

/-- An HTTP response, with the message `raise_for_status` would raise and what
`Decimal(response.json()["rate"])` makes of the body. -/
structure HttpResponse where
  statusCode : Nat
  statusErrorText : String
  rate : Except ForeignException Decimal

/-- The reply of XAUTOCLAIM. -/
structure ClaimReply where
  cursor : Option MsgId
  claimed : List (MsgId × Dict)
  deleted : List MsgId

inductive Command
  | xgroupCreate
  | xadd (fields : Dict) (maxlen : Option Int)
  | xreadgroup (count : Int)
  | xautoclaim (minIdleTime : Int) (startId : MsgId) (count : Int)
  | xpendingRange (msgId : MsgId)
  | xack (msgId : MsgId)
  | xaddDlq (origin : MsgId) (fields : Dict)
  | httpGet (currency : String)
  | execute (row : ProcessedTransaction)
  | commit
  | select
  | probe
  | cacheGet (currency : String)
  | cacheSet (currency : String) (rate : Decimal) (expiresAt : ℚ)
  | monotonic
  | utcNow
  | random
  | sleep (delay : PyFloat)
  | inc (counter : Counter)
  | observe (note : Note)

namespace Command

abbrev Reply : Command → Type
  | xgroupCreate => Unit
  | xadd _ _ => MsgId
  | xreadgroup _ => List (MsgId × Dict)
  | xautoclaim _ _ _ => ClaimReply
  | xpendingRange _ => List Nat
  | xack _ => Unit
  | xaddDlq _ _ => Unit
  | httpGet _ => HttpResponse
  | execute _ => Bool
  | commit => Unit
  | select => Table
  | probe => Unit
  | cacheGet _ => Option (Decimal × ℚ)
  | cacheSet _ _ _ => Unit
  | monotonic => ClockReading
  | utcNow => Int
  | random => UnitDraw
  | sleep _ => Unit
  | inc _ => Unit
  | observe _ => Unit

/-- The commands that go to Redis. -/
def isRedis : Command → Bool
  | xgroupCreate => true
  | xadd _ _ => true
  | xreadgroup _ => true
  | xautoclaim _ _ _ => true
  | xpendingRange _ => true
  | xack _ => true
  | xaddDlq _ _ => true
  | _ => false

end Command

abbrev appSig : Signature where
  Command := Command
  Reply := Command.Reply
  Error := PyException

/-- A coroutine of one of the processes. -/
abbrev App (α : Type) : Type := Prog appSig α

namespace App

abbrev ask (command : Command) : App command.Reply :=
  @Prog.perform appSig command

abbrev xgroupCreate : App Unit :=
  ask .xgroupCreate

abbrev xadd (fields : Dict) (maxlen : Option Int) : App MsgId :=
  ask (.xadd fields maxlen)

abbrev xreadgroup (count : Int) : App (List (MsgId × Dict)) :=
  ask (.xreadgroup count)

abbrev xautoclaim (minIdleTime : Int) (startId : MsgId) (count : Int) :
    App ClaimReply :=
  ask (.xautoclaim minIdleTime startId count)

abbrev xpendingRange (msgId : MsgId) : App (List Nat) :=
  ask (.xpendingRange msgId)

abbrev xack (msgId : MsgId) : App Unit :=
  ask (.xack msgId)

abbrev xaddDlq (origin : MsgId) (fields : Dict) : App Unit :=
  ask (.xaddDlq origin fields)

abbrev httpGet (currency : String) : App HttpResponse :=
  ask (.httpGet currency)

abbrev execute (row : ProcessedTransaction) : App Bool :=
  ask (.execute row)

abbrev commit : App Unit :=
  ask .commit

abbrev select : App Table :=
  ask .select

abbrev probe : App Unit :=
  ask .probe

abbrev cacheGet (currency : String) : App (Option (Decimal × ℚ)) :=
  ask (.cacheGet currency)

abbrev cacheSet (currency : String) (rate : Decimal) (expiresAt : ℚ) :
    App Unit :=
  ask (.cacheSet currency rate expiresAt)

abbrev monotonic : App ClockReading :=
  ask .monotonic

/-- `datetime.now(UTC)`. -/
def utcNow : App DateTime :=
  (ask .utcNow).bind fun wall => .ret ⟨wall, some 0⟩

abbrev random : App UnitDraw :=
  ask .random

abbrev sleep (delay : PyFloat) : App Unit :=
  ask (.sleep delay)

abbrev inc (counter : Counter) : App Unit :=
  ask (.inc counter)

abbrev observe (note : Note) : App Unit :=
  ask (.observe note)

end App

end TxnEvents
