import TxnEvents.Db.Repository
import TxnEvents.Queue.Producer

/-!
# The route handlers
-/

namespace TxnEvents

open Effects Arith App

def ingestEvent (world : World) (payload : TransactionEventIn) :
    App AcceptedResponse := do
  let receivedAt ← utcNow
  let event :=
    TransactionEvent.validate world.unicode ⟨payload.modelDump, receivedAt⟩
  let streamId ←
    (publish world event).tryExcept fun exc =>
      if exc.cls = .osError ∨ exc.cls.isRedisError = true then
        .raise {
          cls := .httpException 503
          text := "queue unavailable: " ++ exc.text }
      else .raise exc
  inc .eventsPublished
  return { eventId := event.id, streamId }

/-- The message of a response model that was given a number it does not
take. -/
def notFinite : PyException where
  cls := .valueError
  text := "Input should be a finite number"

def summaryResponse (userId : String) (total : Numeric 4) (count : Nat) :
    Except PyException UserSummary :=
  if finite : total.toDecimal.isFinite = true then
    .ok ⟨userId, total.toDecimal, finite, count⟩
  else .error notFinite

def getSummary (userId : String) : App UserSummary := do
  let (total, count) ← userSummary userId
  Prog.ofExcept (summaryResponse userId total count)

def transactionOut (row : StoredTransaction) :
    Except PyException TransactionOut :=
  if row.amount.toDecimal.isFinite = true ∧
      row.rate.toDecimal.isFinite = true ∧
      row.amountUsd.toDecimal.isFinite = true then
    .ok {
      id := row.id
      userId := row.userId
      amount := row.amount.toDecimal
      currency := row.currency
      rate := row.rate.toDecimal
      amountUsd := row.amountUsd.toDecimal
      timestamp := row.timestamp }
  else .error notFinite

def transactionOuts : Table → Except PyException (List TransactionOut)
  | [] => .ok []
  | row :: rest => do
      let item ← transactionOut row
      let items ← transactionOuts rest
      return item :: items

/-- A bound without an offset means UTC. -/
def boundOrUtc (bound : Option DateTime) : Option DateTime :=
  bound.map fun moment => moment.orUtc.toDateTime

def userTransactions (world : World) (query : TransactionsQuery) :
    App TransactionPage := do
  let (rows, total) ←
    listUserTransactions world query.userId (boundOrUtc query.start)
      (boundOrUtc query.stop) query.limit query.offset
  let items ← Prog.ofExcept (transactionOuts rows)
  return { items, total, limit := query.limit, offset := query.offset }

/-- Turn `DatabaseUnavailable` into a 503. -/
def databaseUnavailableHandler {α : Type} (exc : PyException) : App α :=
  if exc.cls = .databaseUnavailable then
    .raise {
      cls := .httpException 503
      text := "database unavailable: " ++ exc.text }
  else .raise exc

def route (world : World) : Request → App Response
  | .ingest body => do
      let response ←
        ingestEvent world (TransactionEventIn.validate world.unicode body)
      return .accepted response
  | .summary userId => do
      let response ← getSummary userId
      return .summary response
  | .transactions query => do
      let response ← userTransactions world query
      return .page response

/-- Answer one request. -/
def serve (world : World) (request : Request) : App Unit := do
  let response ←
    ((route world request).tryExcept databaseUnavailableHandler).attempt
  observe (.answered request response)

end TxnEvents
