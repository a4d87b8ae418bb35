import TxnEvents.Core.Retry
import TxnEvents.Db.Repository
import TxnEvents.Services.RateClient

/-!
# Processing one event

Look up a rate, convert, and insert the row unless its id is there.
-/

namespace TxnEvents

open Effects Arith App

/-! ## Conversion -/

/-- The exponent of `Decimal("0.01")`. -/
def usdQuant : Int := -2

def convertToUsd (amount rate : Decimal) : Except Signal Decimal := do
  let product ← Decimal.mul Context.default amount rate
  product.quantize Context.default usdQuant

def raisedSignal : Signal → PyException
  | .invalidOperation =>
      { cls := .decimalSignal, text := "[<class 'decimal.InvalidOperation'>]" }
  | .overflow =>
      { cls := .decimalSignal, text := "[<class 'decimal.Overflow'>]" }

/-- `convert_to_usd` on what the rate lookup returned. -/
def amountUsdOf (amount : Decimal) :
    Option Decimal → Except PyException (Decimal × Decimal)
  | none =>
      .error {
        cls := .other
        text := "unsupported operand type(s) for *: 'decimal.Decimal' and 'NoneType'" }
  | some rate =>
      match convertToUsd amount rate with
      | .ok amountUsd => .ok (rate, amountUsd)
      | .error signal => .error (raisedSignal signal)

/-! ## The processor -/

def onRetry (operation : RetriedOperation) : OnRetry :=
  fun _ _ _ => inc (.retries operation)

/-- The row built from an event and a rate. -/
def processedRow (event : TransactionEvent) (rate amountUsd : Decimal)
    (processedAt : DateTime) : ProcessedTransaction where
  id := event.id
  userId := event.userId
  amount := event.amount
  currency := event.currency
  rate := rate
  amountUsd := amountUsd
  timestamp := event.timestamp.toDateTime
  processedAt := processedAt

def lookUpRate (world : World) (event : TransactionEvent) :
    App (Option Decimal) :=
  retryAsync (getRate world event.currency) world.settings.rateAttempts
    world.settings.retryBaseDelayS world.settings.retryMaxDelayS
    ExceptionClass.isTransient (onRetry .rateLookup)

def insertRow (world : World) (row : ProcessedTransaction) :
    App (Option Bool) :=
  retryAsync (insertIgnoreDuplicate row) world.settings.dbAttempts
    world.settings.retryBaseDelayS world.settings.retryMaxDelayS
    ExceptionClass.isTransient (onRetry .dbInsert)

def process (world : World) (event : TransactionEvent) : App Outcome := do
  let rate? ← lookUpRate world event
  let (rate, amountUsd) ← Prog.ofExcept (amountUsdOf event.amount rate?)
  let processedAt ← utcNow
  let inserted ←
    insertRow world (processedRow event rate amountUsd processedAt)
  if inserted = some true then
    return .processed
  else
    return .duplicate

end TxnEvents
