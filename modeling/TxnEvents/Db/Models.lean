import TxnEvents.Numbers.Numeric
import TxnEvents.Schemas.Events

/-!
# The transactions table

A row as the processor builds it and as the database stores it.  Writing a row
coerces every value to the type of its column; the first value that does not
fit rejects the row with an SQLSTATE.
-/

namespace TxnEvents

open Arith

/-- The offset from UTC, in minutes, that a process reads into a time of day
without one. -/
abbrev LocalZone : Type := Int → Int

/-- The moment the driver sends for a `datetime`.  The driver refuses one that
is outside the years 1 to 9999 in UTC; here it has no range. -/
def driverInstant (zone : LocalZone) (moment : DateTime) : Int :=
  AwareDateTime.instant
    ⟨moment.wall, moment.utcOffset.getD (zone moment.wall)⟩

@[simp]
theorem driverInstant_toDateTime (zone : LocalZone) (moment : AwareDateTime) :
    driverInstant zone moment.toDateTime = moment.instant :=
  rfl

structure ProcessedTransaction where
  id : String
  userId : String
  amount : Decimal
  currency : String
  rate : Decimal
  amountUsd : Decimal
  timestamp : DateTime
  processedAt : DateTime
deriving DecidableEq, Repr

/-- A row of the table. -/
structure StoredTransaction where
  id : String
  userId : String
  amount : Numeric 4
  currency : String
  rate : Numeric 8
  amountUsd : Numeric 4
  timestamp : Int
  processedAt : Int
deriving DecidableEq, Repr

/-- A `VARCHAR` value, with the SQLSTATE of a character no column can hold. -/
def varchar (text : String) : Except String String :=
  if text.toList.contains (Char.ofNat 0) then .error "22021" else .ok text

/-- A `VARCHAR(limit)` value: spaces beyond the limit are cut off, other
characters beyond it are an error. -/
def varcharUpTo (limit : Nat) (text : String) : Except String String :=
  if text.toList.contains (Char.ofNat 0) then .error "22021"
  else if text.toList.length ≤ limit then .ok text
  else if (text.toList.drop limit).all (· = ' ') then
    .ok (String.ofList (text.toList.take limit))
  else .error "22001"

/-- A `NUMERIC(18, scale)` value. -/
def numeric18 (scale : Nat) (value : Decimal) :
    Except String (Numeric scale) :=
  match Numeric.coerce 18 scale value with
  | some stored => .ok stored
  | none => .error "22003"

namespace ProcessedTransaction

/-- The row as the columns take it, or the SQLSTATE of the rejection.  What the
driver refuses before the columns see it is not part of this. -/
def toColumns (zone : LocalZone) (row : ProcessedTransaction) :
    Except String StoredTransaction := do
  let id ← varchar row.id
  let userId ← varchar row.userId
  let amount ← numeric18 4 row.amount
  let currency ← varcharUpTo 3 row.currency
  let rate ← numeric18 8 row.rate
  let amountUsd ← numeric18 4 row.amountUsd
  return {
    id, userId, amount, currency, rate, amountUsd
    timestamp := driverInstant zone row.timestamp
    processedAt := driverInstant zone row.processedAt }

/-- What the columns make of an accepted row, value by value. -/
structure StoredAs (zone : LocalZone) (row : ProcessedTransaction)
    (stored : StoredTransaction) : Prop where
  id : stored.id = row.id
  userId : stored.userId = row.userId
  amount : Numeric.coerce 18 4 row.amount = some stored.amount
  currency : varcharUpTo 3 row.currency = .ok stored.currency
  rate : Numeric.coerce 18 8 row.rate = some stored.rate
  amountUsd : Numeric.coerce 18 4 row.amountUsd = some stored.amountUsd
  timestamp : stored.timestamp = driverInstant zone row.timestamp
  processedAt : stored.processedAt = driverInstant zone row.processedAt

private theorem bind_eq_ok {α β : Type} {first : Except String α}
    {next : α → Except String β} {result : β}
    (succeeded : (first >>= next) = .ok result) :
    ∃ value, first = .ok value ∧ next value = .ok result := by
  cases first with
  | error sqlstate => cases succeeded
  | ok value => exact ⟨value, rfl, succeeded⟩

private theorem varchar_eq_ok {text stored : String}
    (accepted : varchar text = .ok stored) : stored = text := by
  unfold varchar at accepted
  split at accepted
  · cases accepted
  · cases accepted
    rfl

private theorem numeric18_eq_ok {scale : Nat} {value : Decimal}
    {stored : Numeric scale} (accepted : numeric18 scale value = .ok stored) :
    Numeric.coerce 18 scale value = some stored := by
  unfold numeric18 at accepted
  split at accepted
  case h_1 kept coerced =>
    cases accepted
    exact coerced
  case h_2 => cases accepted

theorem storedAs_of_toColumns {zone : LocalZone}
    {row : ProcessedTransaction} {stored : StoredTransaction}
    (accepted : row.toColumns zone = .ok stored) :
    StoredAs zone row stored := by
  obtain ⟨id, idAccepted, accepted⟩ := bind_eq_ok accepted
  obtain ⟨userId, userIdAccepted, accepted⟩ := bind_eq_ok accepted
  obtain ⟨amount, amountAccepted, accepted⟩ := bind_eq_ok accepted
  obtain ⟨currency, currencyAccepted, accepted⟩ := bind_eq_ok accepted
  obtain ⟨rate, rateAccepted, accepted⟩ := bind_eq_ok accepted
  obtain ⟨amountUsd, amountUsdAccepted, accepted⟩ := bind_eq_ok accepted
  cases accepted
  exact {
    id := varchar_eq_ok idAccepted
    userId := varchar_eq_ok userIdAccepted
    amount := numeric18_eq_ok amountAccepted
    currency := currencyAccepted
    rate := numeric18_eq_ok rateAccepted
    amountUsd := numeric18_eq_ok amountUsdAccepted
    timestamp := rfl
    processedAt := rfl }

end ProcessedTransaction

/-- An accepted text is kept as it is exactly when it is within the limit. -/
theorem varcharUpTo_eq_self_iff {limit : Nat} {text stored : String}
    (accepted : varcharUpTo limit text = .ok stored) :
    stored = text ↔ text.toList.length ≤ limit := by
  unfold varcharUpTo at accepted
  split at accepted
  · cases accepted
  · split at accepted
    case isTrue fits =>
      cases accepted
      simp [fits]
    case isFalse long =>
      split at accepted
      · cases accepted
        constructor
        · intro same
          have lengths := congrArg (fun text => text.toList.length) same
          simp only [String.toList_ofList, List.length_take] at lengths
          omega
        · intro fits
          exact absurd fits long
      · cases accepted

end TxnEvents
