import Mathlib.Algebra.Order.Field.Power
import Mathlib.Data.Int.Log
import Mathlib.Data.Rat.Floor
import Mathlib.Tactic.Linarith
import Mathlib.Tactic.NormNum
import Mathlib.Tactic.Ring
import TxnEvents.Numbers.Decimal

/-!
# Rounding as a function of numbers

The operations on decimals work on coefficients and exponents.  Here they are
described by what they do to the numbers: `roundEven` rounds to an integer,
`roundAt` to a multiple of a power of ten, and `rounded` to the significant
digits of a context, where the power of ten depends on the number.

The key to all order properties is `lt_roundEven_iff`: rounding passes an
integer exactly where the number passes a midpoint.
-/

namespace Arith

/-! ## Rounding to an integer -/

/-- The nearest integer, ties to even. -/
def roundEven (number : ℚ) : ℤ :=
  if number - ⌊number⌋ < 1 / 2 ∨
      number - ⌊number⌋ = 1 / 2 ∧ ⌊number⌋ % 2 = 0 then
    ⌊number⌋
  else
    ⌊number⌋ + 1

/-- The number is above the midpoint of `below` and `below + 1`, or on it when
`below` is odd. -/
def PassesMidpoint (below : ℤ) (number : ℚ) : Prop :=
  below + 1 / 2 < number ∨ number = below + 1 / 2 ∧ below % 2 = 1

theorem PassesMidpoint.mono {below : ℤ} {smaller larger : ℚ}
    (passes : PassesMidpoint below smaller) (le : smaller ≤ larger) :
    PassesMidpoint below larger := by
  rcases passes with above | ⟨tie, odd⟩
  · exact Or.inl (lt_of_lt_of_le above le)
  · rcases eq_or_lt_of_le le with same | less
    · exact Or.inr ⟨by rw [← same, tie], odd⟩
    · exact Or.inl (by rw [← tie]; exact less)

theorem lt_roundEven_iff {below : ℤ} {number : ℚ} :
    below < roundEven number ↔ PassesMidpoint below number := by
  have lower : (⌊number⌋ : ℚ) ≤ number := Int.floor_le number
  have upper : number < ⌊number⌋ + 1 := Int.lt_floor_add_one number
  unfold roundEven
  split
  case isTrue down =>
    constructor
    · intro less
      have gap : (below : ℚ) + 1 ≤ ⌊number⌋ := by exact_mod_cast less
      exact Or.inl (by linarith)
    · intro passes
      by_contra notLess
      have gap : (⌊number⌋ : ℚ) ≤ below := by exact_mod_cast not_lt.mp notLess
      rcases down with near | ⟨tie, even⟩
      · rcases passes with above | ⟨onMidpoint, odd⟩
        · linarith
        · linarith
      · rcases passes with above | ⟨onMidpoint, odd⟩
        · linarith
        · have same : (below : ℚ) = ⌊number⌋ := by linarith
          have sameInteger : below = ⌊number⌋ := by exact_mod_cast same
          omega
  case isFalse up =>
    rw [not_or, not_lt, not_and] at up
    obtain ⟨far, notEven⟩ := up
    constructor
    · intro less
      rcases eq_or_lt_of_le (Int.lt_add_one_iff.mp less) with same | smaller
      · rw [same]
        rcases eq_or_lt_of_le far with tie | farther
        · have odd : ⌊number⌋ % 2 = 1 := by
            have parity := notEven tie.symm
            omega
          exact Or.inr ⟨by linarith, odd⟩
        · exact Or.inl (by linarith)
      · have gap : (below : ℚ) + 1 ≤ ⌊number⌋ := by exact_mod_cast smaller
        exact Or.inl (by linarith)
    · intro passes
      by_contra notLess
      have gap : (⌊number⌋ : ℚ) + 1 ≤ below := by
        exact_mod_cast not_lt.mp notLess
      rcases passes with above | ⟨onMidpoint, odd⟩
      · linarith
      · linarith

/-- Two numbers are rounded alike exactly when no midpoint separates them. -/
theorem roundEven_eq_iff {first second : ℚ} :
    roundEven first = roundEven second ↔
      ∀ below, PassesMidpoint below first ↔ PassesMidpoint below second := by
  constructor
  · intro same below
    rw [← lt_roundEven_iff, ← lt_roundEven_iff, same]
  · intro together
    apply le_antisymm
    · by_contra less
      exact (lt_irrefl _)
        (lt_roundEven_iff.mpr ((together _).mp
          (lt_roundEven_iff.mp (not_le.mp less))))
    · by_contra less
      exact (lt_irrefl _)
        (lt_roundEven_iff.mpr ((together _).mpr
          (lt_roundEven_iff.mp (not_le.mp less))))

theorem roundEven_mono {smaller larger : ℚ} (le : smaller ≤ larger) :
    roundEven smaller ≤ roundEven larger := by
  by_contra greater
  have passes := lt_roundEven_iff.mp (not_le.mp greater)
  exact lt_irrefl _ (lt_roundEven_iff.mpr (passes.mono le))

@[simp]
theorem roundEven_intCast (count : ℤ) : roundEven count = count := by
  simp [roundEven]

/-- Reflection swaps the two sides of every midpoint. -/
theorem passesMidpoint_neg_iff {below : ℤ} {number : ℚ} :
    PassesMidpoint below (-number) ↔
      ¬ PassesMidpoint (-below - 1) number := by
  unfold PassesMidpoint
  push_cast
  rw [not_or, not_lt, not_and]
  constructor
  · rintro (above | ⟨tie, odd⟩)
    · constructor
      · linarith
      · intro onMidpoint
        linarith
    · constructor
      · linarith
      · intro onMidpoint
        omega
  · rintro ⟨atMost, notOdd⟩
    rcases eq_or_lt_of_le atMost with tie | less
    · have parity := notOdd tie
      exact Or.inr ⟨by linarith, by omega⟩
    · exact Or.inl (by linarith)

@[simp]
theorem roundEven_neg (number : ℚ) : roundEven (-number) = -roundEven number := by
  have reflected : ∀ below,
      below < roundEven (-number) ↔ below < -roundEven number := by
    intro below
    rw [lt_roundEven_iff, passesMidpoint_neg_iff, ← lt_roundEven_iff]
    omega
  apply le_antisymm
  · by_contra less
    exact lt_irrefl _ ((reflected _).mp (not_le.mp less))
  · by_contra less
    exact lt_irrefl _ ((reflected _).mpr (not_le.mp less))

theorem div_lt_half_iff {whole : ℕ} (positive : 0 < whole) (part : ℕ) :
    (part : ℚ) / whole < 1 / 2 ↔ 2 * part < whole := by
  have nonzero : (0 : ℚ) < whole := by exact_mod_cast positive
  rw [div_lt_div_iff₀ nonzero (by norm_num), one_mul, mul_comm]
  exact_mod_cast Iff.rfl

theorem div_eq_half_iff {whole : ℕ} (positive : 0 < whole) (part : ℕ) :
    (part : ℚ) / whole = 1 / 2 ↔ 2 * part = whole := by
  have nonzero : (whole : ℚ) ≠ 0 := by exact_mod_cast positive.ne'
  rw [div_eq_div_iff nonzero (by norm_num), one_mul, mul_comm]
  exact_mod_cast Iff.rfl

/-- `roundHalfEven` rounds the quotient. -/
theorem roundEven_div (numerator : ℕ) {denominator : ℕ}
    (positive : 0 < denominator) :
    roundEven ((numerator : ℚ) / denominator) =
      roundHalfEven numerator denominator := by
  have floor : ⌊(numerator : ℚ) / denominator⌋ =
      ((numerator / denominator : ℕ) : ℤ) := by
    rw [← Int.cast_natCast numerator, Rat.floor_intCast_div_natCast,
      Int.natCast_ediv]
  have nonzero : (0 : ℚ) < denominator := by exact_mod_cast positive
  have division : (numerator : ℚ) =
      denominator * (numerator / denominator : ℕ) +
        (numerator % denominator : ℕ) := by
    exact_mod_cast (Nat.div_add_mod numerator denominator).symm
  have fraction : (numerator : ℚ) / denominator -
      (((numerator / denominator : ℕ) : ℤ) : ℚ) =
        (numerator % denominator : ℕ) / denominator := by
    rw [Int.cast_natCast, eq_div_iff nonzero.ne', sub_mul,
      div_mul_cancel₀ _ nonzero.ne']
    linarith
  have small := div_lt_half_iff positive (numerator % denominator)
  have half := div_eq_half_iff positive (numerator % denominator)
  unfold roundEven roundHalfEven
  simp only [floor, fraction, small, half]
  norm_cast

/-! ## Rounding to a place -/

/-- The nearest multiple of `10 ^ place`, ties to the even multiple. -/
def roundAt (place : ℤ) (number : ℚ) : ℚ :=
  roundEven (number / 10 ^ place) * 10 ^ place

theorem ten_zpow_pos (place : ℤ) : (0 : ℚ) < 10 ^ place :=
  zpow_pos (by norm_num) place

theorem ten_zpow_le {lower upper : ℤ} (le : lower ≤ upper) :
    (10 : ℚ) ^ lower ≤ 10 ^ upper :=
  zpow_le_zpow_right₀ (by norm_num) le

theorem roundAt_mono (place : ℤ) {smaller larger : ℚ}
    (le : smaller ≤ larger) : roundAt place smaller ≤ roundAt place larger := by
  have positive := ten_zpow_pos place
  have scaled : smaller / 10 ^ place ≤ larger / 10 ^ place :=
    div_le_div_of_nonneg_right le positive.le
  have integers :
      (roundEven (smaller / 10 ^ place) : ℚ) ≤
        roundEven (larger / 10 ^ place) := by
    exact_mod_cast roundEven_mono scaled
  exact mul_le_mul_of_nonneg_right integers positive.le

@[simp]
theorem roundAt_neg (place : ℤ) (number : ℚ) :
    roundAt place (-number) = -roundAt place number := by
  rw [roundAt, neg_div, roundEven_neg, Int.cast_neg, neg_mul, roundAt]

/-- A multiple of the place, or of a larger one, stays as it is. -/
theorem roundAt_multiple {place exponent : ℤ} (le : place ≤ exponent)
    (count : ℤ) :
    roundAt place (count * 10 ^ exponent) = count * 10 ^ exponent := by
  have nonzero := (ten_zpow_pos place).ne'
  obtain ⟨shift, shiftEq⟩ := Int.eq_ofNat_of_zero_le (sub_nonneg.mpr le)
  have split : (10 : ℚ) ^ exponent = 10 ^ shift * 10 ^ place := by
    rw [← zpow_natCast, ← shiftEq, ← zpow_add₀ (by norm_num), sub_add_cancel]
  have integral : (count : ℚ) * 10 ^ exponent / 10 ^ place =
      (count * 10 ^ shift : ℤ) := by
    rw [split, ← mul_assoc, mul_div_cancel_right₀ _ nonzero]
    push_cast
    rfl
  rw [roundAt, integral, roundEven_intCast, ← integral,
    div_mul_cancel₀ _ nonzero]

theorem roundAt_power {place exponent : ℤ} (le : place ≤ exponent) :
    roundAt place (10 ^ exponent) = 10 ^ exponent := by
  have multiple := roundAt_multiple le 1
  rwa [Int.cast_one, one_mul] at multiple

@[simp]
theorem roundAt_zero (place : ℤ) : roundAt place 0 = 0 := by
  have multiple := roundAt_multiple (le_refl place) 0
  rwa [Int.cast_zero, zero_mul] at multiple

theorem roundAt_nonneg (place : ℤ) {number : ℚ} (nonneg : 0 ≤ number) :
    0 ≤ roundAt place number := by
  have bound := roundAt_mono place nonneg
  rwa [roundAt_zero] at bound

theorem abs_roundAt (place : ℤ) (number : ℚ) :
    |roundAt place number| = roundAt place |number| := by
  rcases le_total 0 number with nonneg | nonpos
  · rw [abs_of_nonneg nonneg, abs_of_nonneg (roundAt_nonneg place nonneg)]
  · have reflected := roundAt_nonneg place (neg_nonneg.mpr nonpos)
    rw [roundAt_neg] at reflected
    rw [abs_of_nonpos nonpos, roundAt_neg,
      abs_of_nonpos (neg_nonneg.mp reflected)]

/-- Rounding does not cross a power of ten that it keeps. -/
theorem power_le_abs_roundAt {place exponent : ℤ} (le : place ≤ exponent)
    {number : ℚ} (large : 10 ^ exponent ≤ |number|) :
    10 ^ exponent ≤ |roundAt place number| := by
  have bound := roundAt_mono place large
  rwa [roundAt_power le, ← abs_roundAt] at bound

theorem abs_roundAt_le_power {place exponent : ℤ} (le : place ≤ exponent)
    {number : ℚ} (small : |number| ≤ 10 ^ exponent) :
    |roundAt place number| ≤ 10 ^ exponent := by
  have bound := roundAt_mono place small
  rwa [roundAt_power le, ← abs_roundAt] at bound

/-! ## Rounding to significant digits -/

namespace Context

variable (context : Context)

/-- The place of the last digit that the context keeps of a number. -/
def lastPlace (number : ℚ) : ℤ :=
  max (Int.log 10 |number| + 1 - context.precision) context.etiny

/-- The number rounded to the digits of the context. -/
def rounded (number : ℚ) : ℚ :=
  roundAt (context.lastPlace number) number

@[simp]
theorem rounded_neg (number : ℚ) :
    context.rounded (-number) = -context.rounded number := by
  rw [rounded, lastPlace, abs_neg, roundAt_neg, rounded, lastPlace]

theorem rounded_nonneg {number : ℚ} (nonneg : 0 ≤ number) :
    0 ≤ context.rounded number :=
  roundAt_nonneg _ nonneg

/-- A number without digits beyond the last place stays as it is. -/
theorem rounded_multiple {exponent count : ℤ}
    (le : context.lastPlace (count * 10 ^ exponent) ≤ exponent) :
    context.rounded (count * 10 ^ exponent) = count * 10 ^ exponent :=
  roundAt_multiple le count

theorem lastPlace_le {number : ℚ} {exponent place : ℤ}
    (small : |number| < 10 ^ exponent)
    (digits : exponent - context.precision ≤ place)
    (one : 1 - context.precision ≤ place) (least : context.etiny ≤ place) :
    context.lastPlace number ≤ place := by
  have magnitude : Int.log 10 |number| + 1 - context.precision ≤ place := by
    rcases eq_or_lt_of_le (abs_nonneg number) with zero | positive
    · rw [← zero, Int.log_zero_right]
      omega
    · have less : Int.log 10 |number| < exponent := by
        apply (Int.lt_zpow_iff_log_lt (by norm_num) positive).mp
        exact_mod_cast small
      omega
  exact max_le magnitude least

private theorem rounded_mono_of_pos (precise : 0 < context.precision)
    {smaller larger : ℚ} (positive : 0 < smaller) (le : smaller ≤ larger) :
    context.rounded smaller ≤ context.rounded larger := by
  have largerPositive : 0 < larger := lt_of_lt_of_le positive le
  have logs : Int.log 10 smaller ≤ Int.log 10 larger :=
    Int.log_mono_right positive le
  have smallerPlace : context.lastPlace smaller =
      max (Int.log 10 smaller + 1 - context.precision) context.etiny := by
    rw [lastPlace, abs_of_pos positive]
  have largerPlace : context.lastPlace larger =
      max (Int.log 10 larger + 1 - context.precision) context.etiny := by
    rw [lastPlace, abs_of_pos largerPositive]
  have places : context.lastPlace smaller ≤ context.lastPlace larger := by
    omega
  rcases eq_or_lt_of_le places with same | less
  · rw [rounded, rounded, same]
    exact roundAt_mono _ le
  · -- a power of ten that both roundings keep lies between the numbers
    have below : smaller ≤ 10 ^ Int.log 10 larger := by
      have bound := (Int.lt_zpow_iff_log_lt (by norm_num) positive).mpr
        (show Int.log 10 smaller < Int.log 10 larger by omega)
      exact_mod_cast bound.le
    have above : (10 : ℚ) ^ Int.log 10 larger ≤ larger := by
      exact_mod_cast Int.zpow_log_le_self (by norm_num) largerPositive
    have keptAbove : context.lastPlace larger ≤ Int.log 10 larger := by omega
    have keptBelow : context.lastPlace smaller ≤ Int.log 10 larger := by omega
    calc context.rounded smaller
        ≤ roundAt (context.lastPlace smaller) (10 ^ Int.log 10 larger) :=
          roundAt_mono _ below
      _ = 10 ^ Int.log 10 larger := roundAt_power keptBelow
      _ = roundAt (context.lastPlace larger) (10 ^ Int.log 10 larger) :=
          (roundAt_power keptAbove).symm
      _ ≤ context.rounded larger := roundAt_mono _ above

private theorem rounded_mono_of_nonneg (precise : 0 < context.precision)
    {smaller larger : ℚ} (nonneg : 0 ≤ smaller) (le : smaller ≤ larger) :
    context.rounded smaller ≤ context.rounded larger := by
  rcases eq_or_lt_of_le nonneg with zero | positive
  · have bound := context.rounded_nonneg (nonneg.trans le)
    rw [← zero, rounded, roundAt_zero]
    exact bound
  · exact context.rounded_mono_of_pos precise positive le

/-- Rounding keeps the order although its step grows with the magnitude. -/
theorem rounded_mono (precise : 0 < context.precision) {smaller larger : ℚ}
    (le : smaller ≤ larger) :
    context.rounded smaller ≤ context.rounded larger := by
  rcases le_total 0 smaller with nonneg | nonpos
  · exact context.rounded_mono_of_nonneg precise nonneg le
  · rcases le_total 0 larger with largerNonneg | largerNonpos
    · have lower := context.rounded_nonneg (neg_nonneg.mpr nonpos)
      rw [rounded_neg] at lower
      exact (neg_nonneg.mp lower).trans (context.rounded_nonneg largerNonneg)
    · have reflected := context.rounded_mono_of_nonneg precise
        (neg_nonneg.mpr largerNonpos) (neg_le_neg le)
      rw [rounded_neg, rounded_neg] at reflected
      exact neg_le_neg_iff.mp reflected

end Context

end Arith
