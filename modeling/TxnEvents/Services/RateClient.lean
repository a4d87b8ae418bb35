import TxnEvents.System.Commands

/-!
# Rates from the rate service, cached for a while
-/

namespace TxnEvents

open Effects Arith Python App

/-- The rate if it is there and unexpired. -/
def cached (currency : String) : App (Option Decimal) := do
  match ← cacheGet currency with
  | none => return none
  | some (rate, expiresAt) => do
      let now ← monotonic
      if expiresAt ≤ now.value then
        return none
      else
        return some rate

def store (world : World) (currency : String) (rate : Decimal) :
    App Unit := do
  let now ← monotonic
  cacheSet currency rate (PyFloat.after now world.settings.rateCacheTtlS)

def rateServiceUnavailable (text : String) : PyException where
  cls := .rateServiceUnavailable
  text := text

def unknownCurrency (world : World) (currency : String) : PyException where
  cls := .unknownCurrency
  text := "no rate for currency " ++ repr world.unicode currency

/-- What a response says about the rate. -/
def rateOf (world : World) (currency : String) (response : HttpResponse) :
    Except PyException Decimal :=
  if response.statusCode = 404 then
    .error (unknownCurrency world currency)
  else if 500 ≤ response.statusCode then
    .error (rateServiceUnavailable
      ("rate-service returned " ++ toString response.statusCode))
  else if ¬ (200 ≤ response.statusCode ∧ response.statusCode < 300) then
    .error { cls := .httpStatusError, text := response.statusErrorText }
  else
    match response.rate with
    | .error raised => .error raised.exception
    | .ok rate => .ok rate

def getRate (world : World) (currency : String) : App Decimal := do
  match ← cached currency with
  | some rate => return rate
  | none => do
      let response ←
        (httpGet currency).tryExcept fun exc =>
          if exc.cls = .requestError then
            .raise (rateServiceUnavailable
              ("rate-service unreachable: " ++ exc.text))
          else .raise exc
      let rate ← Prog.ofExcept (rateOf world currency response)
      store world currency rate
      return rate

end TxnEvents
