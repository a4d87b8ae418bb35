import Mathlib.Data.List.Nodup
import TxnEvents.Core.Errors
import TxnEvents.Numbers.Decimal
import TxnEvents.Python.Dict
import TxnEvents.Python.Text

/-!
# The transaction event in its three forms

Inbound, internal, and on the stream.  A request body is typed before the
field validators run; an event is what comes out of them, so its timestamp
always has an offset.  The JSON form of an event is a parameter.
-/

namespace TxnEvents

open Arith Python

/-- A date and time of day in microseconds, with the offset from UTC in
minutes when it has one. -/
structure DateTime where
  wall : Int
  utcOffset : Option Int
deriving DecidableEq, Repr

/-- A date and time with an offset. -/
structure AwareDateTime where
  wall : Int
  utcOffset : Int
deriving DecidableEq, Repr

namespace AwareDateTime

/-- Microseconds of the same moment in UTC. -/
def instant (moment : AwareDateTime) : Int :=
  moment.wall - moment.utcOffset * 60000000

def toDateTime (moment : AwareDateTime) : DateTime :=
  ⟨moment.wall, some moment.utcOffset⟩

end AwareDateTime

/-- `value if value.tzinfo is not None else value.replace(tzinfo=UTC)`. -/
def DateTime.orUtc (moment : DateTime) : AwareDateTime :=
  ⟨moment.wall, moment.utcOffset.getD 0⟩

@[simp]
theorem DateTime.orUtc_toDateTime (moment : AwareDateTime) :
    moment.toDateTime.orUtc = moment :=
  rfl

/-- The fields of the contract, typed but not yet validated.  This is what
`PostedEvent.typed` makes of a posted document; only finite amounts are typed
at all. -/
structure EventBody where
  id : String
  userId : String
  amount : Decimal
  amountFinite : amount.isFinite = true
  currency : String
  timestamp : DateTime
deriving DecidableEq

structure TransactionEventIn where
  id : String
  userId : String
  amount : Decimal
  amountFinite : amount.isFinite = true
  currency : String
  timestamp : AwareDateTime
deriving DecidableEq

structure TransactionEvent extends TransactionEventIn where
  receivedAt : DateTime
deriving DecidableEq

/-- The JSON form of an event, typed but not yet validated. -/
structure RawEvent extends EventBody where
  receivedAt : DateTime
deriving DecidableEq

/-! ## Validators -/

def upperCurrency (unicode : UnicodeData) (value : String) : String :=
  upper unicode value

def naiveTimestampMeansUtc (value : DateTime) : AwareDateTime :=
  value.orUtc

namespace TransactionEventIn

/-- Run the validators on a typed body. -/
def validate (unicode : UnicodeData) (body : EventBody) :
    TransactionEventIn where
  id := body.id
  userId := body.userId
  amount := body.amount
  amountFinite := body.amountFinite
  currency := upperCurrency unicode body.currency
  timestamp := naiveTimestampMeansUtc body.timestamp

def modelDump (event : TransactionEventIn) : EventBody where
  id := event.id
  userId := event.userId
  amount := event.amount
  amountFinite := event.amountFinite
  currency := event.currency
  timestamp := event.timestamp.toDateTime

/-- The validators leave a validated event as it is. -/
@[simp]
theorem validate_modelDump_validate
    (unicode : UnicodeData) (body : EventBody) :
    validate unicode (validate unicode body).modelDump =
      validate unicode body := by
  simp [validate, modelDump, upperCurrency, naiveTimestampMeansUtc]

end TransactionEventIn

namespace TransactionEvent

def validate (unicode : UnicodeData) (raw : RawEvent) :
    TransactionEvent where
  toTransactionEventIn :=
    TransactionEventIn.validate unicode raw.toEventBody
  receivedAt := raw.receivedAt

def raw (event : TransactionEvent) : RawEvent where
  toEventBody := event.modelDump
  receivedAt := event.receivedAt

end TransactionEvent

/-- `model_dump_json` and the typing half of `model_validate_json`.  A
serialised event that types does so as the event it came from; a text that
does not type has the message of the `ValidationError`. -/
structure JsonCodec where
  dump : TransactionEvent → String
  parse : String → Except String RawEvent
  parse_dump : ∀ event raw, parse (dump event) = .ok raw → raw = event.raw

/-- A codec that knows the texts of finitely many events. -/
def JsonCodec.ofSamples (samples : List (TransactionEvent × String))
    (distinct : (samples.map Prod.snd).Nodup)
    (proper : "null" ∉ samples.map Prod.snd) : JsonCodec where
  dump event :=
    ((samples.find? fun sample => sample.1 = event).map Prod.snd).getD "null"
  parse text :=
    match samples.find? fun sample => sample.2 = text with
    | some sample => .ok sample.1.raw
    | none => .error "Input should be a valid dictionary"
  parse_dump := by
    intro event raw parses
    cases known : samples.find? fun sample => sample.1 = event with
    | none =>
        have missing :
            (samples.find? fun sample => sample.2 = "null") = none := by
          refine List.find?_eq_none.mpr ?_
          intro sample member same
          exact proper (List.mem_map.mpr ⟨sample, member, by simpa using same⟩)
        simp [known, missing] at parses
    | some sample =>
        have member := List.mem_of_find?_eq_some known
        have same : sample.1 = event := by
          simpa using List.find?_some known
        cases found : samples.find? fun other => other.2 = sample.2 with
        | none =>
            have absent := List.find?_eq_none.mp found sample member
            simp at absent
        | some other =>
            have otherMember := List.mem_of_find?_eq_some found
            have texts : other.2 = sample.2 := by
              simpa using List.find?_some found
            have equal : other = sample :=
              List.inj_on_of_nodup_map distinct otherMember member texts
            simp only [known, Option.map_some, Option.getD_some, found,
              Except.ok.injEq] at parses
            rw [← parses, equal, same]

/-! ## The stream entry -/

structure StreamEnvelope where
  schemaVersion : Int := 1
  payload : String

namespace StreamEnvelope

def toFields (envelope : StreamEnvelope) : Dict :=
  [("schema_version", toString envelope.schemaVersion),
    ("payload", envelope.payload)]

/-- `fields[key]`. -/
def lookup (fields : Dict) (key : String) : Except PyException String :=
  match fields.get? key with
  | some value => .ok value
  | none => .error { cls := .keyError, text := "'" ++ key ++ "'" }

def fromFields (unicode : UnicodeData) (fields : Dict) :
    Except PyException StreamEnvelope := do
  let versionText ← lookup fields "schema_version"
  let schemaVersion ←
    match Python.int unicode versionText with
    | .ok version => .ok version
    | .error text => .error { cls := .valueError, text }
  let payload ← lookup fields "payload"
  return { schemaVersion, payload }

def toEvent (unicode : UnicodeData) (json : JsonCodec)
    (envelope : StreamEnvelope) : Except PyException TransactionEvent :=
  match json.parse envelope.payload with
  | .ok raw => .ok (TransactionEvent.validate unicode raw)
  | .error text => .error { cls := .valueError, text }

end StreamEnvelope

/-- `StreamEnvelope.from_fields(fields).to_event()`. -/
def parseFields (unicode : UnicodeData) (json : JsonCodec) (fields : Dict) :
    Except PyException TransactionEvent := do
  let envelope ← StreamEnvelope.fromFields unicode fields
  envelope.toEvent unicode json

/-- The fields that publishing an event writes. -/
def publishedFields (json : JsonCodec) (event : TransactionEvent) : Dict :=
  StreamEnvelope.toFields { payload := json.dump event }

theorem parseFields_publishedFields
    (unicode : UnicodeData) (json : JsonCodec) (event : TransactionEvent) :
    parseFields unicode json (publishedFields json event) =
      StreamEnvelope.toEvent unicode json { payload := json.dump event } := by
  have version : toString (1 : Int) = "1" := rfl
  simp [parseFields, publishedFields, StreamEnvelope.fromFields,
    StreamEnvelope.lookup, StreamEnvelope.toFields, Dict.get?, version,
    Python.int_one, StreamEnvelope.toEvent, bind, Except.bind, pure,
    Except.pure]

/-- A published event that parses is validated once more and otherwise comes
back as it was. -/
theorem eq_validate_of_parseFields_publishedFields
    {unicode : UnicodeData} {json : JsonCodec}
    {event parsed : TransactionEvent}
    (parses :
      parseFields unicode json (publishedFields json event) = .ok parsed) :
    parsed = TransactionEvent.validate unicode event.raw := by
  rw [parseFields_publishedFields, StreamEnvelope.toEvent] at parses
  split at parses
  case h_1 raw typed =>
    cases parses
    rw [json.parse_dump event raw typed]
  case h_2 => cases parses

/-- Every failure to parse is a `KeyError` or a `ValueError`. -/
theorem isParseError_of_parseFields
    {unicode : UnicodeData} {json : JsonCodec} {fields : Dict}
    {error : PyException}
    (fails : parseFields unicode json fields = .error error) :
    error.cls.isParseError = true := by
  simp only [parseFields, StreamEnvelope.fromFields, StreamEnvelope.lookup,
    StreamEnvelope.toEvent, bind, Except.bind, pure, Except.pure] at fails
  repeat' split at fails
  all_goals grind [ExceptionClass.isParseError]

end TxnEvents
