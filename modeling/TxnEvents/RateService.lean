import TxnEvents.System.State

/-!
# The rate service

The service that `RateClient` asks: a fixed table, and a switch that makes it
misbehave.
-/

namespace TxnEvents

open Arith Python

namespace RateService

/-- `RATES`. -/
def rates : Dict :=
  [("USD", "1"), ("EUR", "1.08"), ("GBP", "1.27"), ("JPY", "0.0067"),
    ("CAD", "0.73"), ("AUD", "0.66")]

inductive FaultMode
  | ok
  | error
  | timeout
deriving DecidableEq, Repr

/-- `value >= 0`. -/
def atLeastZero : PyFloat → Bool
  | .finite value => decide (0 ≤ value)
  | .infinity negative => !negative
  | .nan => false

structure FaultConfig where
  mode : FaultMode := .ok
  delayS : PyFloat := .finite 0
  nonnegative : atLeastZero delayS = true := by decide
deriving DecidableEq

/-- `_fault`, before anyone has switched it. -/
def noFault : FaultConfig := {}

/-- The body of `POST /admin/fault`. -/
structure FaultBody where
  mode : Option String := none
  delayS : Option PyFloat := none

def FaultBody.validate (body : FaultBody) : Option FaultConfig :=
  let delay := body.delayS.getD (.finite 0)
  let known : Option FaultMode :=
    match body.mode with
    | none => some .ok
    | some "ok" => some .ok
    | some "error" => some .error
    | some "timeout" => some .timeout
    | some _ => none
  if nonnegative : atLeastZero delay = true then
    known.map fun mode => ⟨mode, delay, nonnegative⟩
  else none

/-- How long `get_rate` sleeps, and what it returns or raises then. -/
structure Answer where
  slept : Option PyFloat
  result : Except PyException Dict

def getRate (unicode : UnicodeData) (fault : FaultConfig) (currency : String) :
    Answer :=
  if fault.mode = .error then
    ⟨none, .error
      { cls := .httpException 500, text := "fault injected: error" }⟩
  else
    let slept := if fault.mode = .timeout then some fault.delayS else none
    match rates.get? (upper unicode currency) with
    | none =>
        ⟨slept, .error
          { cls := .httpException 404
            text := "no rate for currency " ++ repr unicode currency }⟩
    | some rate =>
        ⟨slept, .ok [("currency", upper unicode currency), ("rate", rate)]⟩

/-- `set_fault`; a body that is not valid changes nothing. -/
def setFault (fault : FaultConfig) (body : FaultBody) : FaultConfig :=
  body.validate.getD fault

/-- `health`, whatever the fault. -/
def health (_ : FaultConfig) : Dict :=
  [("status", "ok")]

/-! ## What the client makes of it -/

private def digits? (letters : List Char) : Option Nat :=
  letters.foldl (fun sum letter =>
    if letter.isDigit = true then
      sum.map fun value => 10 * value + (letter.toNat - 48)
    else none) (some 0)

/-- `Decimal` of a numeral without an exponent. -/
def numeral? (text : String) : Option Decimal :=
  let signed : Bool × List Char :=
    match text.toList with
    | '-' :: rest => (true, rest)
    | '+' :: rest => (false, rest)
    | rest => (false, rest)
  let whole := signed.2.takeWhile fun letter => letter ≠ '.'
  let fraction := (signed.2.dropWhile fun letter => letter ≠ '.').drop 1
  if whole ++ fraction = [] then none
  else
    (digits? (whole ++ fraction)).map fun coefficient =>
      .finite signed.1 coefficient (-(fraction.length : Int))

/-- The status that a result is sent with. -/
def statusCode : Except PyException Dict → Nat
  | .ok _ => 200
  | .error raised =>
      match raised.cls with
      | .httpException code => code
      | _ => 500

/-- `Decimal(response.json()["rate"])`; the body of an error has a `detail`
and no `rate`. -/
def rateIn (result : Except PyException Dict) :
    Except ForeignException Decimal :=
  match result.toOption.bind fun body => body.get? "rate" with
  | none => .error ⟨{ cls := .keyError, text := "'rate'" }, rfl⟩
  | some text =>
      match numeral? text with
      | some rate => .ok rate
      | none =>
          .error ⟨{
            cls := .decimalSignal
            text := "[<class 'decimal.ConversionSyntax'>]" }, rfl⟩

/-- The rate that the table has for a currency. -/
def tableRate (unicode : UnicodeData) (currency : String) : Option Decimal :=
  (rates.get? (upper unicode currency)).bind numeral?

/-- Every rate of the table is a numeral. -/
theorem numeral_of_mem {code text : String} (member : (code, text) ∈ rates) :
    (numeral? text).isSome = true := by
  have all : ∀ entry ∈ rates, (numeral? entry.2).isSome = true := by
    decide +kernel
  exact all (code, text) member

/-- What `get_rate` comes to. -/
inductive Result (unicode : UnicodeData) (fault : FaultConfig)
    (currency : String) : Prop
  | faulty (mode : fault.mode = .error)
      (raised : statusCode (getRate unicode fault currency).result = 500)
  | unknown (missing : tableRate unicode currency = none)
      (raised : statusCode (getRate unicode fault currency).result = 404)
  | found (rate : Decimal) (listed : tableRate unicode currency = some rate)
      (returned : statusCode (getRate unicode fault currency).result = 200)
      (given : rateIn (getRate unicode fault currency).result = .ok rate)

theorem getRate_cases (unicode : UnicodeData) (fault : FaultConfig)
    (currency : String) : Result unicode fault currency := by
  by_cases mode : fault.mode = .error
  · refine .faulty mode ?_
    rw [getRate, if_pos mode]
    rfl
  · cases entry : rates.get? (upper unicode currency) with
    | none =>
        refine .unknown ?_ ?_
        · rw [tableRate, entry, Option.bind_none]
        · rw [getRate, if_neg mode, entry]
          rfl
    | some text =>
        have numeral := numeral_of_mem (Dict.mem_of_get? entry)
        rcases Option.isSome_iff_exists.mp numeral with ⟨rate, parsed⟩
        refine .found rate ?_ ?_ ?_
        · rw [tableRate, entry, Option.bind_some, parsed]
        · rw [getRate, if_neg mode, entry]
          rfl
        · rw [getRate, if_neg mode, entry]
          simp [rateIn, Dict.get?, Except.toOption, parsed]

example : numeral? "0.0067" = some (.finite false 67 (-4)) := by
  decide +kernel

end RateService

end TxnEvents
