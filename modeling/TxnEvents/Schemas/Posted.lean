import Mathlib.Algebra.Order.Archimedean.Basic
import Mathlib.Data.Rat.Floor
import TxnEvents.Numbers.Numeric
import TxnEvents.Schemas.Events

/-!
# The body of a request as it is posted

What the client writes and what the validators are given is not the same.
`json.loads` makes a `float` of a number with a fraction or an exponent, of
which the model makes a `Decimal` through its `str`; a date and time keeps six
digits after the second.  The document says what it says exactly, and `typed`
is what becomes of it.
-/

namespace TxnEvents

open Arith

/-- The number in a posted amount. -/
inductive PostedAmount
  /-- A JSON string. -/
  | string (number : Decimal)
  /-- A JSON number without a fraction and without an exponent. -/
  | integer (number : Int)
  /-- A JSON number with a fraction or an exponent, digit by digit. -/
  | float (literal : Decimal)
deriving DecidableEq

/-- The moment in a posted timestamp, in microseconds. -/
inductive PostedTimestamp
  /-- A date and time of day, with any number of digits after the second, and
  its offset from UTC in minutes if it has one. -/
  | text (wall : ℚ) (utcOffset : Option Int)
  /-- A number that counts from the start of 1970. -/
  | number (instant : ℚ)
deriving DecidableEq

/-- How numbers are read.  `str` gives the shortest number that reads as the
same `float`, which has no more digits after the point than the literal. -/
structure NumberReader where
  /-- `Decimal(str(float(literal)))`. -/
  decimal : Decimal → Decimal
  /-- The microsecond that a number as a timestamp is read as. -/
  microsecond : ℚ → Int
  decimal_short : ∀ literal, literal.HasScale 4 →
    (decimal literal).isFinite = true → (decimal literal).HasScale 4

namespace PostedAmount

/-- What the amount says. -/
def literal : PostedAmount → Decimal
  | string number => number
  | integer number => .finite (number < 0) number.natAbs 0
  | float literal => literal

/-- What the amount is read as. -/
def typed (reader : NumberReader) : PostedAmount → Decimal
  | string number => number
  | integer number => .finite (number < 0) number.natAbs 0
  | float literal => reader.decimal literal

/-- Reading the amount leaves the number as it is. -/
def ReadExactly (reader : NumberReader) (amount : PostedAmount) : Prop :=
  ∀ literal, amount = float literal →
    (reader.decimal literal).value = literal.value

theorem readExactly_iff {reader : NumberReader} {amount : PostedAmount} :
    amount.ReadExactly reader ↔
      (amount.typed reader).value = amount.literal.value := by
  cases amount with
  | string number =>
      exact ⟨fun _ => rfl, fun _ _ same => by cases same⟩
  | integer number =>
      exact ⟨fun _ => rfl, fun _ _ same => by cases same⟩
  | float literal =>
      constructor
      · intro exactly
        exact exactly literal rfl
      · intro same other isOther
        cases isOther
        exact same

/-- Reading adds no digits to an amount of four. -/
theorem hasScale_typed {reader : NumberReader} {amount : PostedAmount}
    (short : amount.literal.HasScale 4)
    (finite : (amount.typed reader).isFinite = true) :
    (amount.typed reader).HasScale 4 := by
  cases amount with
  | string number => exact short
  | integer number => exact short
  | float literal => exact reader.decimal_short literal short finite

end PostedAmount

namespace PostedTimestamp

/-- The moment in UTC; a time of day without an offset is one in UTC. -/
def instant : PostedTimestamp → ℚ
  | text wall utcOffset => wall - utcOffset.getD 0 * 60000000
  | number instant => instant

/-- What the timestamp is read as: later digits of a text are cut off. -/
def typed (reader : NumberReader) : PostedTimestamp → DateTime
  | text wall utcOffset => ⟨⌊wall⌋, utcOffset⟩
  | number instant => ⟨reader.microsecond instant, some 0⟩

/-- The timestamp is a whole number of microseconds, and read as that. -/
def ReadExactly (reader : NumberReader) : PostedTimestamp → Prop
  | text wall _ => ∃ count : Int, wall = count
  | number instant => (reader.microsecond instant : ℚ) = instant

theorem readExactly_iff (reader : NumberReader)
    (timestamp : PostedTimestamp) :
    timestamp.ReadExactly reader ↔
      ((timestamp.typed reader).orUtc.instant : ℚ) = timestamp.instant := by
  cases timestamp with
  | text wall utcOffset =>
      have kept : ((⌊wall⌋ - utcOffset.getD 0 * 60000000 : Int) : ℚ) =
          wall - utcOffset.getD 0 * 60000000 ↔ (⌊wall⌋ : ℚ) = wall := by
        push_cast
        exact sub_left_inj
      refine Iff.trans ?_ kept.symm
      constructor
      · intro whole
        rcases whole with ⟨count, same⟩
        rw [same, Int.floor_intCast]
      · intro same
        exact ⟨⌊wall⌋, same.symm⟩
  | number instant =>
      simp [ReadExactly, typed, PostedTimestamp.instant, DateTime.orUtc,
        AwareDateTime.instant]

end PostedTimestamp

/-- The document of a `POST /events`. -/
structure PostedEvent where
  id : String
  userId : String
  amount : PostedAmount
  currency : String
  timestamp : PostedTimestamp
deriving DecidableEq

/-- The typed body; `none` when the amount is read as no finite number, which
is answered with 422. -/
def PostedEvent.typed (reader : NumberReader) (posted : PostedEvent) :
    Option EventBody :=
  if finite : (posted.amount.typed reader).isFinite = true then
    some {
      id := posted.id
      userId := posted.userId
      amount := posted.amount.typed reader
      amountFinite := finite
      currency := posted.currency
      timestamp := posted.timestamp.typed reader }
  else none

/-- The typed body field by field. -/
structure TypedAs (reader : NumberReader) (posted : PostedEvent)
    (body : EventBody) : Prop where
  id : body.id = posted.id
  userId : body.userId = posted.userId
  amount : body.amount = posted.amount.typed reader
  currency : body.currency = posted.currency
  timestamp : body.timestamp = posted.timestamp.typed reader

theorem typedAs_of_typed {reader : NumberReader} {posted : PostedEvent}
    {body : EventBody} (typed : posted.typed reader = some body) :
    TypedAs reader posted body := by
  unfold PostedEvent.typed at typed
  split at typed
  · cases typed
    exact ⟨rfl, rfl, rfl, rfl, rfl⟩
  · cases typed

end TxnEvents
