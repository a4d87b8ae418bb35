import TxnEvents.Numbers.Rounding

/-!
# The floating-point operations of the backoff and the rate cache

A finite `float` is taken as the rational number it is: a multiple of its last
bit, which is the 53rd binary digit or the last one of the subnormal numbers.
Scaling by a power of two is exact in binary, so such a product rounds nothing
and can only overflow (`IsFloat.mul_two_pow`); other products are rounded to
the nearest `float`.
-/

namespace Python

inductive PyFloat
  | finite (value : ℚ)
  | infinity (negative : Bool)
  | nan
deriving DecidableEq, Repr

/-- The least magnitude that is no `float` any more. -/
@[irreducible]
def floatLimit : Nat := 2 ^ 1024

/-- The exponent of the last binary digit of a `float` of this magnitude. -/
def lastBit (magnitude : ℚ) : ℤ :=
  max (Int.log 2 magnitude - 52) (-1074)

/-- The number is a finite `float`. -/
structure IsFloat (value : ℚ) : Prop where
  below : |value| < floatLimit
  multiple : ∃ count : ℤ, value = count * 2 ^ lastBit |value|

/-- A draw of `random.random()`. -/
structure UnitDraw where
  value : ℚ
  nonnegative : 0 ≤ value
  belowOne : value < 1
deriving DecidableEq

def UnitDraw.zero : UnitDraw :=
  ⟨0, by norm_num, by norm_num⟩

theorem isFloat_zero : IsFloat 0 where
  below := by
    rw [abs_zero]
    unfold floatLimit
    positivity
  multiple := ⟨0, by simp⟩

/-- A reading of `time.monotonic()`. -/
structure ClockReading where
  value : ℚ
  nonnegative : 0 ≤ value
  float : IsFloat value
deriving DecidableEq

def ClockReading.zero : ClockReading :=
  ⟨0, le_refl 0, isFloat_zero⟩

namespace PyFloat

/-- `base * factor` for a `float` and a power of two; `none` when the integer
is too large to be converted. -/
def scale (base : ℚ) (factor : Nat) : Option PyFloat :=
  if floatLimit ≤ factor then none
  else if (floatLimit : ℚ) ≤ base * factor then some (infinity false)
  else if base * factor ≤ -(floatLimit : ℚ) then some (infinity true)
  else some (finite (base * factor))

/-- `min(left, right)`: the first one unless the second one is smaller. -/
def minWith (left : ℚ) : PyFloat → PyFloat
  | finite right => if right < left then finite right else finite left
  | infinity true => infinity true
  | infinity false => finite left
  | nan => finite left

/-- The nearest multiple of the last bit, ties to even. -/
def roundToFloat (value : ℚ) : ℚ :=
  Arith.roundEven (value / 2 ^ lastBit |value|) * 2 ^ lastBit |value|

/-- `reading + seconds`.  A sum too large for a `float` stays the number it is:
no reading reaches it, as none reaches infinity. -/
def after (reading : ClockReading) (seconds : ℚ) : ℚ :=
  roundToFloat (reading.value + seconds)

/-- The nearest `float`; infinite when that is too large. -/
def nearest (value : ℚ) : PyFloat :=
  if (floatLimit : ℚ) ≤ |roundToFloat value| then infinity (value < 0)
  else finite (roundToFloat value)

/-- `random.uniform(0, ceiling)`. -/
def uniform (draw : UnitDraw) : PyFloat → PyFloat
  | finite ceiling => nearest (ceiling * draw.value)
  | infinity negative => if draw.value = 0 then nan else infinity negative
  | nan => nan

end PyFloat

/-! ## Products that stay in range -/

section Products

variable {value ceiling : ℚ}

theorem two_zpow_pos (exponent : ℤ) : (0 : ℚ) < 2 ^ exponent :=
  zpow_pos (by norm_num) exponent

theorem lastBit_mono (positive : 0 < value) (le : value ≤ ceiling) :
    lastBit value ≤ lastBit ceiling := by
  have logs : Int.log 2 value ≤ Int.log 2 ceiling :=
    Int.log_mono_right positive le
  unfold lastBit
  omega

/-- A multiple of a power of two is one of every smaller power. -/
theorem multiple_of_le {finer coarser : ℤ} (le : finer ≤ coarser)
    (multiple : ∃ count : ℤ, value = count * 2 ^ coarser) :
    ∃ count : ℤ, value = count * 2 ^ finer := by
  rcases multiple with ⟨count, same⟩
  obtain ⟨gap, gapEq⟩ : ∃ gap : ℕ, coarser = finer + gap :=
    ⟨(coarser - finer).toNat, by omega⟩
  refine ⟨count * 2 ^ gap, ?_⟩
  rw [same, gapEq, zpow_add₀ (by norm_num), zpow_natCast]
  push_cast
  ring

/-- A number of 53 binary digits is a `float`. -/
theorem isFloat_of_digits {digits : ℤ} {exponent : ℤ}
    (same : value = digits * 2 ^ exponent)
    (short : |digits| < 2 ^ 53) (least : -1074 ≤ exponent)
    (below : |value| < floatLimit) : IsFloat value where
  below := below
  multiple := by
    by_cases zero : value = 0
    · exact ⟨0, by rw [zero]; simp⟩
    · refine multiple_of_le ?_ ⟨digits, same⟩
      have size : |value| = |(digits : ℚ)| * 2 ^ exponent := by
        rw [same, abs_mul, abs_of_pos (two_zpow_pos exponent)]
      have shortCast : |(digits : ℚ)| < 2 ^ (53 : ℤ) := by
        exact_mod_cast short
      have bound : |value| < ((2 : ℕ) : ℚ) ^ (53 + exponent) := by
        rw [size, Nat.cast_ofNat, zpow_add₀ (by norm_num)]
        exact mul_lt_mul_of_pos_right shortCast (two_zpow_pos exponent)
      have logs : Int.log 2 |value| < 53 + exponent :=
        (Int.lt_zpow_iff_log_lt (by norm_num) (abs_pos.mpr zero)).mp bound
      unfold lastBit
      omega

/-- Scaling by a power of two keeps the digits. -/
theorem IsFloat.mul_two_pow (float : IsFloat value) (power : ℕ)
    (below : |value * 2 ^ power| < floatLimit) :
    IsFloat (value * 2 ^ power) where
  below := below
  multiple := by
    by_cases zero : value = 0
    · exact ⟨0, by rw [zero]; simp⟩
    · rcases float.multiple with ⟨count, same⟩
      have scaled : |value * 2 ^ power| = |value| * 2 ^ power := by
        rw [abs_mul, abs_of_pos (by positivity : (0 : ℚ) < 2 ^ power)]
      have upper : |value * 2 ^ power| <
          ((2 : ℕ) : ℚ) ^ (Int.log 2 |value| + 1 + power) := by
        have digits := Int.lt_zpow_succ_log_self (by norm_num : 1 < 2) |value|
        rw [scaled, zpow_add₀ (by norm_num), zpow_natCast, Nat.cast_ofNat]
        exact mul_lt_mul_of_pos_right digits (by positivity)
      have nonzero : 0 < |value * 2 ^ power| := by
        rw [scaled]
        exact mul_pos (abs_pos.mpr zero) (by positivity)
      have logs : Int.log 2 |value * 2 ^ power| <
          Int.log 2 |value| + 1 + power :=
        (Int.lt_zpow_iff_log_lt (by norm_num) nonzero).mp upper
      have finer : lastBit |value * 2 ^ power| ≤ lastBit |value| + power := by
        unfold lastBit
        omega
      refine multiple_of_le finer ⟨count, ?_⟩
      rw [zpow_add₀ (by norm_num), zpow_natCast, ← mul_assoc, ← same]

theorem roundEven_zero : Arith.roundEven 0 = 0 := by
  simpa using Arith.roundEven_intCast 0

theorem roundToFloat_nonneg (nonnegative : 0 ≤ value) :
    0 ≤ PyFloat.roundToFloat value := by
  have unit : (0 : ℚ) < 2 ^ lastBit |value| := two_zpow_pos (lastBit |value|)
  have rounds := Arith.roundEven_mono (div_nonneg nonnegative unit.le)
  rw [roundEven_zero] at rounds
  exact mul_nonneg (by exact_mod_cast rounds) unit.le

theorem roundToFloat_nonpos (nonpositive : value ≤ 0) :
    PyFloat.roundToFloat value ≤ 0 := by
  have unit : (0 : ℚ) < 2 ^ lastBit |value| := two_zpow_pos (lastBit |value|)
  have rounds :=
    Arith.roundEven_mono (div_nonpos_of_nonpos_of_nonneg nonpositive unit.le)
  rw [roundEven_zero] at rounds
  exact mul_nonpos_of_nonpos_of_nonneg (by exact_mod_cast rounds) unit.le

/-- Rounding goes beyond no `float`. -/
theorem roundToFloat_le (nonnegative : 0 ≤ ceiling) (le : value ≤ ceiling)
    (float : IsFloat ceiling) : PyFloat.roundToFloat value ≤ ceiling := by
  rcases le_or_gt value 0 with nonpositive | positive
  · exact (roundToFloat_nonpos nonpositive).trans nonnegative
  · have unit : (0 : ℚ) < 2 ^ lastBit value := two_zpow_pos (lastBit value)
    have multiple := float.multiple
    rw [abs_of_nonneg nonnegative] at multiple
    rcases multiple_of_le (lastBit_mono positive le) multiple with
      ⟨count, same⟩
    have quotient : value / 2 ^ lastBit value ≤ (count : ℚ) := by
      rw [div_le_iff₀ unit, ← same]
      exact le
    have rounds := Arith.roundEven_mono quotient
    rw [Arith.roundEven_intCast] at rounds
    have counted :
        (Arith.roundEven (value / 2 ^ lastBit value) : ℚ) ≤ count := by
      exact_mod_cast rounds
    rw [PyFloat.roundToFloat, abs_of_pos positive]
    calc
      (Arith.roundEven (value / 2 ^ lastBit value) : ℚ) *
          2 ^ lastBit value ≤ count * 2 ^ lastBit value :=
        mul_le_mul_of_nonneg_right counted unit.le
      _ = ceiling := same.symm

theorem nearest_of_le (nonnegative : 0 ≤ value) (le : value ≤ ceiling)
    (float : IsFloat ceiling) :
    ∃ rounded, PyFloat.nearest value = .finite rounded ∧
      0 ≤ rounded ∧ rounded ≤ ceiling := by
  have lower := roundToFloat_nonneg nonnegative
  have upper := roundToFloat_le (nonnegative.trans le) le float
  have inRange : ¬ (floatLimit : ℚ) ≤ |PyFloat.roundToFloat value| := by
    rw [abs_of_nonneg lower, not_le]
    exact lt_of_le_of_lt (upper.trans (le_abs_self ceiling)) float.below
  exact ⟨_, by rw [PyFloat.nearest, if_neg inRange], lower, upper⟩

end Products

end Python
