import Mathlib.Algebra.Group.Defs
import Mathlib.Algebra.Order.Field.Power
import Mathlib.Tactic.Linarith
import Mathlib.Tactic.NormNum
import TxnEvents.Numbers.Decimal

/-!
# Fixed-point columns

A `Numeric(precision, scale)` column of a relational database holds a number
of units of `10 ^ -scale`, or the value NaN.  Writing a decimal coerces it: it
is rounded to `scale` fractional digits, half away from zero, and rejected
when more than `precision` digits are left.  A column with a precision rejects
infinities and accepts NaN.

`coerce_value_eq_iff` is the exactness criterion: the column keeps a number
unchanged exactly when the number has at most `scale` fractional digits.
-/

namespace Arith

/-- A finite decimal has a value. -/
theorem Decimal.exists_value {decimal : Decimal}
    (finite : decimal.isFinite = true) :
    ∃ number, decimal.value = some number := by
  cases decimal with
  | finite negative coefficient exponent => exact ⟨_, rfl⟩
  | infinity negative => cases finite
  | nan signaling => cases finite

/-- A number with at most `scale` fractional digits. -/
def Decimal.HasScale (scale : Nat) (decimal : Decimal) : Prop :=
  ∃ number, decimal.value = some number ∧
    ∃ count : Int, number * 10 ^ scale = count

/-- The values of a column with `scale` fractional digits. -/
inductive Numeric (scale : Nat)
  | nan
  | units (count : Int)
deriving DecidableEq, Repr

namespace Numeric

variable {scale : Nat}

/-- The number a column value stands for. -/
def value : Numeric scale → Option ℚ
  | nan => none
  | units count => some (count / 10 ^ scale)

/-- Column addition; NaN absorbs. -/
def add : Numeric scale → Numeric scale → Numeric scale
  | units left, units right => units (left + right)
  | _, _ => nan

instance : Add (Numeric scale) := ⟨add⟩

instance : Zero (Numeric scale) := ⟨units 0⟩

theorem units_add (left right : Int) :
    (units left + units right : Numeric scale) = units (left + right) :=
  rfl

theorem nan_add (stored : Numeric scale) : nan + stored = nan :=
  rfl

theorem add_nan (stored : Numeric scale) : stored + nan = nan := by
  cases stored with
  | nan => rfl
  | units count => rfl

theorem zero_eq_units : (0 : Numeric scale) = units 0 :=
  rfl

/-- Sums do not depend on the order of their terms. -/
instance : AddCommMonoid (Numeric scale) where
  add_assoc first second third := by
    cases first with
    | nan => simp only [nan_add]
    | units left =>
        cases second with
        | nan => simp only [nan_add, add_nan]
        | units middle =>
            cases third with
            | nan => simp only [add_nan]
            | units right => simp only [units_add, Int.add_assoc]
  zero_add stored := by
    cases stored with
    | nan => exact add_nan _
    | units count => rw [zero_eq_units, units_add, Int.zero_add]
  add_zero stored := by
    cases stored with
    | nan => exact nan_add _
    | units count => rw [zero_eq_units, units_add, Int.add_zero]
  add_comm left right := by
    cases left with
    | nan => rw [nan_add, add_nan]
    | units first =>
        cases right with
        | nan => rw [add_nan, nan_add]
        | units second => rw [units_add, units_add, Int.add_comm]
  nsmul := nsmulRec

theorem add_eq_nan_iff
    {left right : Numeric scale} :
    left + right = nan ↔ left = nan ∨ right = nan := by
  cases left with
  | nan => simp [nan_add]
  | units first =>
      cases right with
      | nan => simp [add_nan]
      | units second => simp [units_add]

/-- One NaN makes a sum NaN. -/
theorem sum_eq_nan_iff
    {terms : List (Numeric scale)} :
    terms.foldr (· + ·) 0 = nan ↔ nan ∈ terms := by
  induction terms with
  | nil => simp [zero_eq_units]
  | cons term rest inductionHypothesis =>
      rw [List.foldr_cons, add_eq_nan_iff, inductionHypothesis,
        List.mem_cons, eq_comm]

/-- A column value read back as a decimal. -/
def toDecimal : Numeric scale → Decimal
  | nan => .nan false
  | units count => .finite (count < 0) count.natAbs (-scale)

theorem isFinite_toDecimal_iff
    {stored : Numeric scale} :
    stored.toDecimal.isFinite = true ↔ stored ≠ nan := by
  cases stored with
  | nan => simp [toDecimal, Decimal.isFinite]
  | units count => simp [toDecimal, Decimal.isFinite]

/-- The magnitude of `coefficient * 10 ^ exponent` in units, rounded half away
from zero. -/
def unitsOf (scale coefficient : Nat) (exponent : Int) : Nat :=
  if 0 ≤ exponent + scale then
    coefficient * 10 ^ (exponent + scale).toNat
  else
    roundHalfUp coefficient (10 ^ (-(exponent + scale)).toNat)

/-- Coerce a decimal into the column; `none` is an overflow. -/
def coerce (precision scale : Nat) : Decimal → Option (Numeric scale)
  | .nan _ => some nan
  | .infinity _ => none
  | .finite negative coefficient exponent =>
      let magnitude := unitsOf scale coefficient exponent
      if magnitude < 10 ^ precision then
        some (units (Decimal.signed negative magnitude))
      else
        none

theorem value_toDecimal (stored : Numeric scale) :
    stored.toDecimal.value = stored.value := by
  cases stored with
  | nan => rfl
  | units count =>
      have magnitude :
          Decimal.signed (decide (count < 0)) count.natAbs = count := by
        unfold Decimal.signed
        split
        case isTrue negative =>
          simp only [decide_eq_true_eq] at negative
          omega
        case isFalse positive =>
          simp only [decide_eq_true_eq] at positive
          omega
      simp only [toDecimal, Decimal.value, value, magnitude, zpow_neg,
        zpow_natCast, div_eq_mul_inv]

theorem roundHalfUp_mul {divisor quotient : Nat} (positive : 0 < divisor) :
    roundHalfUp (divisor * quotient) divisor = quotient := by
  rw [roundHalfUp]
  apply Nat.div_eq_of_lt_le
  · nlinarith
  · nlinarith

private theorem scaled_eq_zpow (scale coefficient : Nat) (exponent : Int) :
    (coefficient : ℚ) * 10 ^ exponent * 10 ^ scale =
      coefficient * 10 ^ (exponent + scale) := by
  rw [mul_assoc, ← zpow_natCast, ← zpow_add₀ (by norm_num)]

/-- The rounded units are the scaled number itself exactly when that is a
natural number. -/
theorem unitsOf_eq_iff (scale coefficient : Nat) (exponent : Int) :
    (unitsOf scale coefficient exponent : ℚ) =
        coefficient * 10 ^ exponent * 10 ^ scale ↔
      ∃ count : Nat,
        (coefficient : ℚ) * 10 ^ exponent * 10 ^ scale = count := by
  constructor
  · intro same
    exact ⟨_, same.symm⟩
  · rintro ⟨count, integral⟩
    rw [integral]
    rw [scaled_eq_zpow] at integral
    unfold unitsOf
    split
    case isTrue nonnegative =>
      obtain ⟨shift, shiftEq⟩ := Int.eq_ofNat_of_zero_le nonnegative
      rw [shiftEq, zpow_natCast] at integral
      rw [shiftEq, Int.toNat_natCast]
      exact_mod_cast integral
    case isFalse negative =>
      obtain ⟨shift, shiftEq⟩ :=
        Int.eq_ofNat_of_zero_le (a := -(exponent + scale)) (by omega)
      have exponentEq : exponent + scale = -(shift : Int) := by omega
      have positive : 0 < 10 ^ shift := Nat.pow_pos (by decide)
      rw [exponentEq, zpow_neg, zpow_natCast, ← div_eq_mul_inv,
        div_eq_iff (by positivity)] at integral
      have exact : coefficient = 10 ^ shift * count := by
        rw [Nat.mul_comm]
        exact_mod_cast integral
      rw [shiftEq, Int.toNat_natCast, exact, roundHalfUp_mul positive]

private theorem signed_cast (negative : Bool) (magnitude : Nat) :
    ((Decimal.signed negative magnitude : Int) : ℚ) =
      (if negative then -1 else 1) * magnitude := by
  cases negative <;> simp [Decimal.signed]

/-- Writing a finite decimal keeps its value exactly when it has at most
`scale` fractional digits. -/
theorem coerce_value_eq_iff
    {precision scale : Nat} {decimal : Decimal} {stored : Numeric scale}
    {number : ℚ}
    (finite : decimal.value = some number)
    (written : coerce precision scale decimal = some stored) :
    stored.value = some number ↔
      ∃ count : Int, number * 10 ^ scale = count := by
  cases decimal with
  | infinity negative => cases finite
  | nan signaling => cases finite
  | finite negative coefficient exponent =>
      simp only [coerce] at written
      split at written
      case isFalse tooLarge => cases written
      case isTrue fits =>
        cases written
        simp only [Decimal.value, Option.some.injEq] at finite
        subst number
        have power : (10 : ℚ) ^ scale ≠ 0 := by positivity
        simp only [value, Option.some.injEq, div_eq_iff power, signed_cast]
        rw [mul_assoc, mul_assoc, ← mul_assoc (coefficient : ℚ)]
        have sign : (if negative then (-1 : ℚ) else 1) ≠ 0 := by
          cases negative <;> norm_num
        rw [mul_right_inj' sign, unitsOf_eq_iff]
        have nonnegative :
            0 ≤ (coefficient : ℚ) * 10 ^ exponent * 10 ^ scale := by
          positivity
        constructor
        · rintro ⟨count, integral⟩
          rw [integral]
          refine ⟨Decimal.signed negative count, ?_⟩
          rw [signed_cast]
        · rintro ⟨count, integral⟩
          cases negative with
          | false =>
              simp only [Bool.false_eq_true, if_false, one_mul] at integral
              rw [integral] at nonnegative
              have lower : 0 ≤ count := by exact_mod_cast nonnegative
              obtain ⟨natural, rfl⟩ := Int.eq_ofNat_of_zero_le lower
              exact ⟨natural, by exact_mod_cast integral⟩
          | true =>
              simp only [if_true, neg_mul, one_mul] at integral
              have lower : 0 ≤ -count := by
                have bound : (0 : ℚ) ≤ -count := by
                  rw [← integral, neg_neg]
                  exact nonnegative
                exact_mod_cast bound
              obtain ⟨natural, naturalEq⟩ := Int.eq_ofNat_of_zero_le lower
              refine ⟨natural, ?_⟩
              have countEq : count = -(natural : Int) := by omega
              rw [countEq] at integral
              push_cast at integral
              linarith

theorem coerce_eq_iff_hasScale
    {precision scale : Nat} {decimal : Decimal} {stored : Numeric scale}
    (finite : decimal.isFinite = true)
    (written : coerce precision scale decimal = some stored) :
    stored.value = decimal.value ↔ decimal.HasScale scale := by
  obtain ⟨number, valued⟩ := Decimal.exists_value finite
  rw [valued, coerce_value_eq_iff valued written]
  constructor
  · intro integral
    exact ⟨number, valued, integral⟩
  · rintro ⟨other, otherValued, integral⟩
    rw [valued] at otherValued
    cases otherValued
    exact integral

/-- What a finite decimal becomes has no more than the digits of the
column. -/
theorem hasScale_of_coerce
    {precision scale : Nat} {decimal other : Decimal} {stored : Numeric scale}
    (finite : decimal.isFinite = true)
    (written : coerce precision scale decimal = some stored)
    (same : stored.value = other.value) : other.HasScale scale := by
  cases decimal with
  | infinity negative => cases finite
  | nan signaling => cases finite
  | finite negative coefficient exponent =>
      simp only [coerce] at written
      split at written
      case isFalse tooLarge => cases written
      case isTrue fits =>
        cases written
        have power : (10 : ℚ) ^ scale ≠ 0 := by positivity
        exact ⟨_, same.symm, _, div_mul_cancel₀ _ power⟩

end Numeric

end Arith
