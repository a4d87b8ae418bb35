import Mathlib.Algebra.Order.Round
import Mathlib.Tactic.FieldSimp
import TxnEvents.Numbers.Numeric
import TxnEvents.Numbers.Rounding

/-!
# What the decimal operations compute

`fix_spec` and `quantize_spec` say, by value, what the two roundings of
decimals do and exactly when they raise.
-/

namespace Arith

/-- The number of a sign, a coefficient and an exponent. -/
def number (negative : Bool) (coefficient : ℕ) (exponent : ℤ) : ℚ :=
  Decimal.signed negative coefficient * 10 ^ exponent

@[simp]
theorem value_finite (negative : Bool) (coefficient : ℕ) (exponent : ℤ) :
    (Decimal.finite negative coefficient exponent).value =
      some (number negative coefficient exponent) :=
  rfl

@[simp]
theorem number_zero (negative : Bool) (exponent : ℤ) :
    number negative 0 exponent = 0 := by
  cases negative <;> simp [number, Decimal.signed]

theorem number_true (coefficient : ℕ) (exponent : ℤ) :
    number true coefficient exponent = -number false coefficient exponent := by
  simp [number, Decimal.signed]

theorem number_succ (negative : Bool) (coefficient : ℕ) (exponent : ℤ) :
    number negative coefficient (exponent + 1) =
      number negative (coefficient * 10) exponent := by
  have power : (10 : ℚ) ^ (exponent + 1) = 10 ^ exponent * 10 :=
    zpow_add_one₀ (by norm_num) exponent
  unfold number
  rw [power]
  cases negative <;> simp [Decimal.signed] <;> ring

theorem abs_number (negative : Bool) (coefficient : ℕ) (exponent : ℤ) :
    |number negative coefficient exponent| = coefficient * 10 ^ exponent := by
  have nonneg : (0 : ℚ) ≤ coefficient * 10 ^ exponent :=
    mul_nonneg (Nat.cast_nonneg coefficient) (ten_zpow_pos exponent).le
  have magnitude : number false coefficient exponent =
      coefficient * 10 ^ exponent := by
    simp [number, Decimal.signed]
  cases negative with
  | false => rw [magnitude, abs_of_nonneg nonneg]
  | true => rw [number_true, abs_neg, magnitude, abs_of_nonneg nonneg]

theorem number_mul (left right : Bool) (leftCoefficient rightCoefficient : ℕ)
    (leftExponent rightExponent : ℤ) :
    number left leftCoefficient leftExponent *
        number right rightCoefficient rightExponent =
      number (left != right) (leftCoefficient * rightCoefficient)
        (leftExponent + rightExponent) := by
  have powers : (10 : ℚ) ^ (leftExponent + rightExponent) =
      10 ^ leftExponent * 10 ^ rightExponent := zpow_add₀ (by norm_num) _ _
  have signs : Decimal.signed (left != right)
        (leftCoefficient * rightCoefficient) =
      Decimal.signed left leftCoefficient *
        Decimal.signed right rightCoefficient := by
    cases left <;> cases right <;> simp [Decimal.signed]
  unfold number
  rw [powers, signs]
  push_cast
  ring

/-- Digits below the exponent shift the coefficient. -/
theorem mul_ten_zpow_of_le {lower upper : ℤ} (le : lower ≤ upper) (factor : ℚ) :
    factor * 10 ^ upper = factor * 10 ^ (upper - lower).toNat * 10 ^ lower := by
  have shift : ((upper - lower).toNat : ℤ) = upper - lower := by omega
  rw [mul_assoc, ← zpow_natCast, shift, ← zpow_add₀ (by norm_num),
    sub_add_cancel]

/-- A coefficient with `digitCount` digits lies between two powers of ten. -/
theorem log_abs_number {coefficient : ℕ} (nonzero : coefficient ≠ 0)
    (negative : Bool) (exponent : ℤ) :
    Int.log 10 |number negative coefficient exponent| =
      digitCount coefficient - 1 + exponent := by
  have natural : 0 < coefficient := Nat.pos_of_ne_zero nonzero
  have positive : (0 : ℚ) < coefficient * 10 ^ exponent :=
    mul_pos (by exact_mod_cast natural) (ten_zpow_pos exponent)
  have lower : ((10 ^ Nat.log 10 coefficient : ℕ) : ℚ) ≤ coefficient := by
    exact_mod_cast Nat.pow_log_le_self 10 nonzero
  have upper : (coefficient : ℚ) < (10 ^ (Nat.log 10 coefficient + 1) : ℕ) := by
    exact_mod_cast Nat.lt_pow_succ_log_self (by norm_num) coefficient
  rw [abs_number]
  apply le_antisymm
  · rw [← Int.lt_add_one_iff]
    apply (Int.lt_zpow_iff_log_lt (by norm_num) positive).mp
    have exponents : ((digitCount coefficient : ℕ) : ℤ) - 1 + exponent + 1 =
        ((Nat.log 10 coefficient + 1 : ℕ) : ℤ) + exponent := by
      rw [digitCount]
      omega
    push_cast at upper
    rw [exponents, Nat.cast_ofNat, zpow_add₀ (by norm_num), zpow_natCast]
    exact mul_lt_mul_of_pos_right upper (ten_zpow_pos exponent)
  · apply (Int.zpow_le_iff_le_log (by norm_num) positive).mp
    have exponents : ((digitCount coefficient : ℕ) : ℤ) - 1 + exponent =
        (Nat.log 10 coefficient : ℤ) + exponent := by
      rw [digitCount]
      omega
    push_cast at lower
    rw [exponents, Nat.cast_ofNat, zpow_add₀ (by norm_num), zpow_natCast]
    exact mul_le_mul_of_nonneg_right lower (ten_zpow_pos exponent).le

theorem power_le_abs_number {coefficient : ℕ} (nonzero : coefficient ≠ 0)
    (negative : Bool) (exponent : ℤ) :
    10 ^ (digitCount coefficient - 1 + exponent : ℤ) ≤
      |number negative coefficient exponent| := by
  have positive : 0 < |number negative coefficient exponent| := by
    rw [abs_number]
    exact mul_pos (by exact_mod_cast Nat.pos_of_ne_zero nonzero)
      (ten_zpow_pos exponent)
  have bound := Int.zpow_log_le_self (by norm_num : 1 < 10) positive
  rw [log_abs_number nonzero] at bound
  exact_mod_cast bound

theorem abs_number_lt_power {coefficient : ℕ} (nonzero : coefficient ≠ 0)
    (negative : Bool) (exponent : ℤ) :
    |number negative coefficient exponent| <
      10 ^ (digitCount coefficient + exponent : ℤ) := by
  have bound := Int.lt_zpow_succ_log_self (by norm_num : 1 < 10)
    |number negative coefficient exponent|
  rw [log_abs_number nonzero] at bound
  have exponents : ((digitCount coefficient : ℕ) : ℤ) - 1 + exponent + 1 =
      digitCount coefficient + exponent := by omega
  rw [exponents] at bound
  exact_mod_cast bound

namespace Decimal

/-- `rescale` rounds the number at the target. -/
theorem number_rescale (negative : Bool) (coefficient : ℕ)
    (exponent target : ℤ) :
    number negative (rescale coefficient exponent target) target =
      roundAt target (number negative coefficient exponent) := by
  have positiveCase :
      number false (rescale coefficient exponent target) target =
        roundAt target (number false coefficient exponent) := by
    simp only [number, signed, Bool.false_eq_true, if_false, rescale]
    split
    case isTrue le =>
      have shifted : ((coefficient : ℤ) : ℚ) * 10 ^ exponent =
          ((coefficient * 10 ^ (exponent - target).toNat : ℕ) : ℤ) *
            10 ^ target := by
        rw [mul_ten_zpow_of_le le]
        push_cast
        rfl
      rw [shifted, roundAt_multiple (le_refl target)]
    case isFalse greater =>
      have le : exponent ≤ target := by omega
      have quotient : ((coefficient : ℤ) : ℚ) * 10 ^ exponent / 10 ^ target =
          (coefficient : ℚ) / (10 ^ (target - exponent).toNat : ℕ) := by
        have powers := mul_ten_zpow_of_le le 1
        rw [one_mul, one_mul] at powers
        have nonzero := (ten_zpow_pos exponent).ne'
        rw [powers, mul_comm ((10 : ℚ) ^ _), ← div_div,
          mul_div_cancel_right₀ _ nonzero]
        push_cast
        rfl
      rw [roundAt, quotient,
        roundEven_div coefficient (Nat.pow_pos (by norm_num))]
  cases negative with
  | false => exact positiveCase
  | true => rw [number_true, number_true, roundAt_neg, positiveCase]

section Fix

variable {context : Context} {negative : Bool} {coefficient : ℕ}
  {exponent : ℤ}

theorem lastPlace_number (nonzero : coefficient ≠ 0) :
    context.lastPlace (number negative coefficient exponent) =
      max (digitCount coefficient + exponent - context.precision)
        context.etiny := by
  have shift : ((digitCount coefficient : ℕ) : ℤ) - 1 + exponent + 1 =
      digitCount coefficient + exponent := by omega
  rw [Context.lastPlace, log_abs_number nonzero, shift]

/-- A coefficient that grows past the precision by rounding is the next power
of ten. -/
theorem rescale_eq_power (precise : 0 < context.precision)
    (nonzero : coefficient ≠ 0)
    (grown : context.precision <
      digitCount (rescale coefficient exponent
        (max (digitCount coefficient + exponent - context.precision)
          context.etiny))) :
    rescale coefficient exponent
        (max (digitCount coefficient + exponent - context.precision)
          context.etiny) = 10 ^ context.precision := by
  generalize placeEq :
    max (digitCount coefficient + exponent - context.precision)
      context.etiny = place at grown ⊢
  have keeps : place ≤ place + context.precision := by omega
  have small : |number false coefficient exponent| ≤
      10 ^ (place + context.precision) := by
    have digits := (abs_number_lt_power nonzero false exponent).le
    have exponents : (digitCount coefficient : ℤ) + exponent ≤
        place + context.precision := by omega
    exact digits.trans (ten_zpow_le exponents)
  have bound := abs_roundAt_le_power keeps small
  rw [← number_rescale, abs_number, zpow_add₀ (by norm_num), zpow_natCast,
    mul_comm ((10 : ℚ) ^ place)] at bound
  have upper : ((rescale coefficient exponent place : ℕ) : ℚ) ≤
      10 ^ context.precision :=
    le_of_mul_le_mul_right bound (ten_zpow_pos place)
  have upperNat : rescale coefficient exponent place ≤
      10 ^ context.precision := by
    exact_mod_cast upper
  have lowerNat : 10 ^ context.precision ≤
      rescale coefficient exponent place := by
    rw [digitCount, Nat.lt_add_one_iff] at grown
    apply Nat.pow_le_of_le_log _ grown
    intro zero
    rw [zero, Nat.log_zero_right] at grown
    omega
  exact Nat.le_antisymm upperNat lowerNat

/-- A finite result is the rounded number; it overflows exactly when that
number is out of range. -/
theorem fix_spec (precise : 0 < context.precision)
    (range : context.emin ≤ context.emax) (negative : Bool) (coefficient : ℕ)
    (exponent : ℤ) :
    (∃ kept place,
      fix context negative coefficient exponent =
          .ok (finite negative kept place) ∧
        number negative kept place =
          context.rounded (number negative coefficient exponent)) ∨
      fix context negative coefficient exponent = .error .overflow ∧
        10 ^ (context.emax + 1) ≤
          |context.rounded (number negative coefficient exponent)| := by
  have etop : context.etop + context.precision = context.emax + 1 := by
    unfold Context.etop
    omega
  have etiny : context.etiny + context.precision = context.emin + 1 := by
    unfold Context.etiny
    omega
  by_cases zero : coefficient = 0
  · subst zero
    refine Or.inl ⟨0, min (max exponent context.etiny) context.emax, ?_, ?_⟩
    · simp [fix]
    · rw [number_zero, number_zero, Context.rounded, roundAt_zero]
  · have place : context.lastPlace (number negative coefficient exponent) =
        max (digitCount coefficient + exponent - context.precision)
          context.etiny := lastPlace_number zero
    have large := power_le_abs_number zero negative exponent
    rw [Context.rounded, place]
    simp only [fix, if_neg zero]
    split
    case isTrue beyond =>
      have keeps :
          max (digitCount coefficient + exponent - context.precision)
              context.etiny ≤ (digitCount coefficient - 1 + exponent : ℤ) := by
        omega
      have reaches : context.emax + 1 ≤
          (digitCount coefficient - 1 + exponent : ℤ) := by
        omega
      exact Or.inr ⟨rfl,
        (ten_zpow_le reaches).trans (power_le_abs_roundAt keeps large)⟩
    case isFalse within =>
      have grown : context.precision <
            digitCount (rescale coefficient exponent
              (max (digitCount coefficient + exponent - context.precision)
                context.etiny)) →
          rescale coefficient exponent
              (max (digitCount coefficient + exponent - context.precision)
                context.etiny) = 10 ^ context.precision :=
        rescale_eq_power precise zero
      generalize placeEq :
        max (digitCount coefficient + exponent - context.precision)
          context.etiny = last at grown ⊢
      split
      case isTrue dropped =>
        have rescaled : roundHalfEven coefficient (10 ^ (last - exponent).toNat) =
            rescale coefficient exponent last := by
          rw [rescale, if_neg (by omega)]
        rw [rescaled, ← number_rescale]
        split
        case isTrue longer =>
          rw [grown longer]
          have magnitude :
              |number negative (10 ^ context.precision) last| =
                10 ^ (last + context.precision) := by
            rw [abs_number, zpow_add₀ (by norm_num), zpow_natCast]
            push_cast
            ring
          split
          case isTrue beyond =>
            refine Or.inr ⟨rfl, ?_⟩
            rw [magnitude]
            exact ten_zpow_le (by omega)
          case isFalse =>
            refine Or.inl ⟨_, _, rfl, ?_⟩
            rw [number_succ, Nat.div_mul_cancel (dvd_pow_self 10 precise.ne')]
        case isFalse =>
          exact Or.inl ⟨_, _, rfl, rfl⟩
      case isFalse kept =>
        refine Or.inl ⟨_, _, rfl, ?_⟩
        exact (roundAt_multiple (by omega) _).symm

end Fix

/-- A finite result is the rounded number; the operation is invalid exactly
when that number has more digits than the precision. -/
theorem quantize_spec {context : Context} {target : ℤ}
    (lower : context.etiny ≤ target)
    (upper : target + context.precision ≤ context.emax + 1)
    (precise : 0 < context.precision) (negative : Bool) (coefficient : ℕ)
    (exponent : ℤ) :
    (∃ kept,
      quantize context target (finite negative coefficient exponent) =
          .ok (finite negative kept target) ∧
        number negative kept target =
          roundAt target (number negative coefficient exponent) ∧
        |roundAt target (number negative coefficient exponent)| <
          10 ^ (target + context.precision)) ∨
      quantize context target (finite negative coefficient exponent) =
          .error .invalidOperation ∧
        10 ^ (target + context.precision) ≤
          |roundAt target (number negative coefficient exponent)| := by
  have inRange : ¬ (target < context.etiny ∨ context.emax < target) := by
    omega
  simp only [quantize, if_neg inRange]
  by_cases zero : coefficient = 0
  · refine Or.inl ⟨0, by rw [if_pos zero], ?_, ?_⟩
    · rw [zero, number_zero, number_zero, roundAt_zero]
    · rw [zero, number_zero, roundAt_zero, abs_zero]
      exact ten_zpow_pos _
  · rw [if_neg zero]
    have large := power_le_abs_number zero negative exponent
    split
    case isTrue long =>
      have reaches : target + context.precision ≤
          (digitCount coefficient - 1 + exponent : ℤ) := by
        omega
      have keeps : target ≤ target + context.precision := by omega
      exact Or.inr ⟨rfl,
        power_le_abs_roundAt keeps ((ten_zpow_le reaches).trans large)⟩
    case isFalse short =>
      rw [← number_rescale]
      generalize rescale coefficient exponent target = rescaled
      split
      case isTrue longer =>
        refine Or.inr ⟨rfl, ?_⟩
        have nonzero : rescaled ≠ 0 := by
          intro none
          rw [none, digitCount, Nat.log_zero_right] at longer
          omega
        have digits := power_le_abs_number nonzero negative target
        exact (ten_zpow_le (by omega)).trans digits
      case isFalse fits =>
        refine Or.inl ⟨rescaled, rfl, rfl, ?_⟩
        by_cases none : rescaled = 0
        · rw [none, number_zero, abs_zero]
          exact ten_zpow_pos _
        · have digits := abs_number_lt_power none negative target
          exact digits.trans_le (ten_zpow_le (by omega))

/-- A product of finite values is the exact product rounded to the digits of
the context; it overflows exactly when that number is out of range. -/
theorem mul_spec {context : Context} (precise : 0 < context.precision)
    (range : context.emin ≤ context.emax) {left right : Decimal}
    {leftNumber rightNumber : ℚ} (leftValue : left.value = some leftNumber)
    (rightValue : right.value = some rightNumber) :
    (∃ negative coefficient exponent,
      mul context left right = .ok (finite negative coefficient exponent) ∧
        number negative coefficient exponent =
          context.rounded (leftNumber * rightNumber)) ∨
      mul context left right = .error .overflow ∧
        10 ^ (context.emax + 1) ≤
          |context.rounded (leftNumber * rightNumber)| := by
  cases left with
  | infinity negative => cases leftValue
  | nan signaling => cases leftValue
  | finite leftNegative leftCoefficient leftExponent =>
      cases right with
      | infinity negative => cases rightValue
      | nan signaling => cases rightValue
      | finite rightNegative rightCoefficient rightExponent =>
          rw [value_finite, Option.some.injEq] at leftValue rightValue
          rw [← leftValue, ← rightValue, number_mul]
          rcases fix_spec precise range (leftNegative != rightNegative)
              (leftCoefficient * rightCoefficient)
              (leftExponent + rightExponent) with ⟨kept, place, succeeds, same⟩ | ⟨fails, large⟩
          · exact Or.inl ⟨_, kept, place, succeeds, same⟩
          · exact Or.inr ⟨fails, large⟩

end Decimal

/-! ## Columns -/

namespace Numeric

/-- The nearest integer, ties away from zero. -/
def nearestAway (number : ℚ) : ℤ :=
  if number < 0 then -round (-number) else round number

/-- The number in the units of a column with `scale` fractional digits. -/
def kept (scale : ℕ) (number : ℚ) : ℚ :=
  nearestAway (number * 10 ^ scale) / 10 ^ scale

theorem nearestAway_of_nonneg {number : ℚ} (nonneg : 0 ≤ number) :
    nearestAway number = round number := by
  rw [nearestAway, if_neg (not_lt.mpr nonneg)]

theorem nearestAway_neg (number : ℚ) :
    nearestAway (-number) = -nearestAway number := by
  rcases lt_trichotomy number 0 with negative | zero | positive
  · rw [nearestAway_of_nonneg (neg_nonneg.mpr negative.le), nearestAway,
      if_pos negative, neg_neg]
  · rw [zero, neg_zero, nearestAway_of_nonneg (le_refl 0), round_zero,
      neg_zero]
  · rw [nearestAway_of_nonneg positive.le, nearestAway,
      if_pos (neg_neg_iff_pos.mpr positive), neg_neg]

theorem nearestAway_intCast (count : ℤ) : nearestAway count = count := by
  unfold nearestAway
  split
  · rw [← Int.cast_neg, round_intCast, neg_neg]
  · rw [round_intCast]

/-- A positive count is reached half a unit below it. -/
theorem le_nearestAway_iff
    {count : ℤ}
    (positive : 0 < count)
    {number : ℚ} :
    count ≤ nearestAway number ↔ count - 1 / 2 ≤ number := by
  have least : (1 : ℚ) ≤ count := by exact_mod_cast positive
  by_cases negative : number < 0
  · have below : nearestAway number ≤ 0 := by
      rw [nearestAway, if_pos negative, neg_nonpos, round_eq]
      apply Int.floor_nonneg.mpr
      linarith
    constructor
    · intro reached
      omega
    · intro reached
      linarith
  · rw [nearestAway, if_neg negative, round_eq, Int.le_floor,
      sub_le_iff_le_add]

theorem kept_pos_iff
    {scale : ℕ}
    {number : ℚ} :
    0 < kept scale number ↔ 1 / 2 ≤ number * 10 ^ scale := by
  have power : (0 : ℚ) < 10 ^ scale := by positivity
  have reached : 1 ≤ nearestAway (number * 10 ^ scale) ↔
      ((1 : ℤ) : ℚ) - 1 / 2 ≤ number * 10 ^ scale :=
    le_nearestAway_iff one_pos
  rw [kept, div_pos_iff_of_pos_right power, Int.cast_pos, ← Int.add_one_le_iff,
    zero_add, reached, Int.cast_one]
  norm_num

/-- A number with at most `scale` fractional digits is kept. -/
theorem kept_eq_self {scale : ℕ} {number : ℚ} {count : ℤ}
    (digits : number * 10 ^ scale = count) : kept scale number = number := by
  have nonzero : (10 : ℚ) ^ scale ≠ 0 := by positivity
  rw [kept, digits, nearestAway_intCast, ← digits,
    mul_div_cancel_right₀ _ nonzero]

theorem roundHalfUp_eq_round (numerator : ℕ) {denominator : ℕ}
    (positive : 0 < denominator) :
    (roundHalfUp numerator denominator : ℤ) =
      round ((numerator : ℚ) / denominator) := by
  have nonzero : (denominator : ℚ) ≠ 0 := by
    exact_mod_cast positive.ne'
  have shifted : (numerator : ℚ) / denominator + 1 / 2 =
      ((2 * numerator + denominator : ℕ) : ℤ) /
        ((2 * denominator : ℕ) : ℚ) := by
    push_cast
    field_simp
  rw [round_eq, shifted, Rat.floor_intCast_div_natCast, roundHalfUp,
    Int.natCast_ediv]

theorem unitsOf_eq_nearestAway (scale coefficient : ℕ) (exponent : ℤ) :
    (unitsOf scale coefficient exponent : ℤ) =
      nearestAway (number false coefficient exponent * 10 ^ scale) := by
  have magnitude : number false coefficient exponent * 10 ^ scale =
      coefficient * 10 ^ (exponent + scale) := by
    rw [number, zpow_add₀ (by norm_num), zpow_natCast, ← mul_assoc]
    simp [Decimal.signed]
  have nonneg : (0 : ℚ) ≤ coefficient * 10 ^ (exponent + scale) :=
    mul_nonneg (Nat.cast_nonneg coefficient) (ten_zpow_pos _).le
  rw [magnitude, nearestAway_of_nonneg nonneg, unitsOf]
  split
  case isTrue integral =>
    obtain ⟨shift, shiftEq⟩ := Int.eq_ofNat_of_zero_le integral
    have whole : (coefficient : ℚ) * 10 ^ (exponent + scale) =
        ((coefficient * 10 ^ shift : ℕ) : ℚ) := by
      rw [shiftEq, zpow_natCast]
      push_cast
      rfl
    rw [whole, round_natCast, shiftEq, Int.toNat_natCast]
  case isFalse fractional =>
    have negated : ((-(exponent + scale)).toNat : ℤ) =
        -(exponent + scale) := by
      omega
    have quotient : (coefficient : ℚ) * 10 ^ (exponent + scale) =
        (coefficient : ℚ) / (10 ^ (-(exponent + scale)).toNat : ℕ) := by
      push_cast
      rw [← zpow_natCast, negated, zpow_neg, div_inv_eq_mul]
    rw [quotient, roundHalfUp_eq_round coefficient (Nat.pow_pos (by norm_num))]

/-- What a column keeps of a finite value. -/
theorem coerce_spec {precision scale : ℕ} {decimal : Decimal}
    {stored : Numeric scale} {exact : ℚ} (valued : decimal.value = some exact)
    (written : coerce precision scale decimal = some stored) :
    stored.value = some (kept scale exact) ∧
      ∃ count : ℤ, stored = units count ∧ |count| < 10 ^ precision := by
  cases decimal with
  | infinity negative => cases valued
  | nan signaling => cases valued
  | finite negative coefficient exponent =>
      rw [value_finite, Option.some.injEq] at valued
      simp only [coerce] at written
      split at written
      case isFalse tooLarge => cases written
      case isTrue fits =>
        cases written
        have signs : Decimal.signed negative (unitsOf scale coefficient exponent) =
            nearestAway (exact * 10 ^ scale) := by
          rw [← valued]
          cases negative with
          | false => exact unitsOf_eq_nearestAway scale coefficient exponent
          | true =>
              rw [number_true, neg_mul, nearestAway_neg,
                ← unitsOf_eq_nearestAway]
              rfl
        have bounded :
            |Decimal.signed negative (unitsOf scale coefficient exponent)| <
              10 ^ precision := by
          have cast : ((unitsOf scale coefficient exponent : ℕ) : ℤ) <
              10 ^ precision := by
            exact_mod_cast fits
          cases negative <;> simpa [Decimal.signed] using cast
        exact ⟨by rw [value, signs, kept], _, rfl, bounded⟩

end Numeric

end Arith
