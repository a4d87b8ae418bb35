import Mathlib.Algebra.Order.Field.Basic
import Mathlib.Data.Nat.Log
import Mathlib.Data.Rat.Cast.Order

/-!
# Decimal floating-point arithmetic

The finite, infinite and not-a-number values of the General Decimal Arithmetic
specification, with the two operations that conversions use: multiplication,
which rounds an exact product to the precision of a context, and `quantize`,
which rounds to a fixed exponent.  Both round half to even.

A finite value keeps its sign, its coefficient and its exponent, so equal
numbers may have several representations; `Decimal.value` is the number.
-/

namespace Arith

/-- The conditions of an operation that a context with the usual traps
raises. -/
inductive Signal
  | invalidOperation
  | overflow
deriving DecidableEq, Repr

inductive Decimal
  | finite (negative : Bool) (coefficient : Nat) (exponent : Int)
  | infinity (negative : Bool)
  | nan (signaling : Bool)
deriving DecidableEq, Repr

/-- Precision and exponent range of an arithmetic context. -/
structure Context where
  precision : Nat
  emax : Int
  emin : Int

namespace Context

/-- The context with 28 significant digits. -/
def default : Context :=
  ⟨28, 999999, -999999⟩

/-- The smallest exponent of a subnormal result. -/
def etiny (context : Context) : Int :=
  context.emin - context.precision + 1

/-- The largest exponent of a full-precision result. -/
def etop (context : Context) : Int :=
  context.emax - context.precision + 1

end Context

/-- Number of decimal digits, one for zero. -/
def digitCount (coefficient : Nat) : Nat :=
  Nat.log 10 coefficient + 1

/-- Quotient rounded to nearest, ties to even. -/
def roundHalfEven (numerator denominator : Nat) : Nat :=
  let quotient := numerator / denominator
  let twice := 2 * (numerator % denominator)
  if twice < denominator ∨ twice = denominator ∧ quotient % 2 = 0 then
    quotient
  else
    quotient + 1

/-- Quotient rounded to nearest, ties upwards. -/
def roundHalfUp (numerator denominator : Nat) : Nat :=
  (2 * numerator + denominator) / (2 * denominator)

namespace Decimal

def isFinite : Decimal → Bool
  | finite _ _ _ => true
  | infinity _ => false
  | nan _ => false

/-- The signed magnitude of a sign bit and a coefficient. -/
def signed (negative : Bool) (magnitude : Nat) : Int :=
  if negative then -magnitude else magnitude

/-- The number a finite value stands for. -/
def value : Decimal → Option ℚ
  | finite negative coefficient exponent =>
      some (signed negative coefficient * 10 ^ exponent)
  | infinity _ => none
  | nan _ => none

/-- Round a finite result into the context. -/
def fix (context : Context) (negative : Bool) (coefficient : Nat)
    (exponent : Int) : Except Signal Decimal :=
  if coefficient = 0 then
    .ok (finite negative 0 (min (max exponent context.etiny) context.emax))
  else
    let least := digitCount coefficient + exponent - context.precision
    if context.etop < least then
      .error .overflow
    else
      let least := max least context.etiny
      if exponent < least then
        let rounded :=
          roundHalfEven coefficient (10 ^ (least - exponent).toNat)
        if context.precision < digitCount rounded then
          if context.etop < least + 1 then .error .overflow
          else .ok (finite negative (rounded / 10) (least + 1))
        else
          .ok (finite negative rounded least)
      else
        .ok (finite negative coefficient exponent)

/-- `left * right` in the context. -/
def mul (context : Context) : Decimal → Decimal → Except Signal Decimal
  | nan true, _ => .error .invalidOperation
  | _, nan true => .error .invalidOperation
  | nan false, _ => .ok (nan false)
  | _, nan false => .ok (nan false)
  | infinity left, infinity right => .ok (infinity (left != right))
  | infinity left, finite right coefficient _ =>
      if coefficient = 0 then .error .invalidOperation
      else .ok (infinity (left != right))
  | finite left coefficient _, infinity right =>
      if coefficient = 0 then .error .invalidOperation
      else .ok (infinity (left != right))
  | finite left leftCoefficient leftExponent,
    finite right rightCoefficient rightExponent =>
      fix context (left != right) (leftCoefficient * rightCoefficient)
        (leftExponent + rightExponent)

/-- The coefficient of the same number at another exponent, rounded half to
even when digits are lost. -/
def rescale (coefficient : Nat) (exponent target : Int) : Nat :=
  if target ≤ exponent then
    coefficient * 10 ^ (exponent - target).toNat
  else
    roundHalfEven coefficient (10 ^ (target - exponent).toNat)

/-- Round to the exponent `target`.  A result with more digits than the
precision is invalid, and so is an infinity. -/
def quantize (context : Context) (target : Int) :
    Decimal → Except Signal Decimal
  | nan true => .error .invalidOperation
  | nan false => .ok (nan false)
  | infinity _ => .error .invalidOperation
  | finite negative coefficient exponent =>
      if target < context.etiny ∨ context.emax < target then
        .error .invalidOperation
      else if coefficient = 0 then
        .ok (finite negative 0 target)
      else if context.emax < digitCount coefficient + exponent - 1 ∨
          context.precision < digitCount coefficient + exponent - target then
        .error .invalidOperation
      else
        let rescaled := rescale coefficient exponent target
        if context.precision < digitCount rescaled then
          .error .invalidOperation
        else
          .ok (finite negative rescaled target)

end Decimal

end Arith
