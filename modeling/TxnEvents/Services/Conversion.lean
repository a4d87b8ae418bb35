import TxnEvents.Db.Models
import TxnEvents.Numbers.Correctness
import TxnEvents.Services.Processor

/-!
# What a conversion computes

The product is rounded to 28 significant digits and then to cents, so it is
rounded twice.  `convertToUsd_spec` states the result by value.  For numbers
that fit the columns the first rounding changes nothing that can be stored,
and both roundings keep sign and order for all numbers.
-/

namespace TxnEvents

open Arith

/-- The 28-digit product in cents. -/
def convertedNumber (amount rate : ℚ) : ℚ :=
  roundAt usdQuant (Context.default.rounded (amount * rate))

/-- A conversion of finite values returns the 28-digit product in cents; it
raises exactly when that number has more than 28 digits. -/
theorem convertToUsd_spec {amount rate : Decimal} {amountNumber rateNumber : ℚ}
    (amountValue : amount.value = some amountNumber)
    (rateValue : rate.value = some rateNumber) :
    (∃ negative coefficient,
      convertToUsd amount rate =
          .ok (.finite negative coefficient usdQuant) ∧
        number negative coefficient usdQuant =
          convertedNumber amountNumber rateNumber ∧
        |convertedNumber amountNumber rateNumber| < 10 ^ (26 : ℤ)) ∨
      (∃ signal, convertToUsd amount rate = .error signal) ∧
        10 ^ (26 : ℤ) ≤ |convertedNumber amountNumber rateNumber| := by
  have products :=
    Decimal.mul_spec (show 0 < Context.default.precision by decide)
      (show Context.default.emin ≤ Context.default.emax by decide)
      amountValue rateValue
  rcases products with
    ⟨negative, coefficient, exponent, product, same⟩ | ⟨overflow, large⟩
  · have quantized :=
      Decimal.quantize_spec
        (show Context.default.etiny ≤ usdQuant by decide)
        (show usdQuant + Context.default.precision ≤
          Context.default.emax + 1 by decide)
        (show 0 < Context.default.precision by decide)
        negative coefficient exponent
    rw [same] at quantized
    rcases quantized with ⟨kept, succeeds, value, small⟩ | ⟨fails, large⟩
    · refine Or.inl ⟨negative, kept, ?_, value, small⟩
      rw [convertToUsd, product]
      exact succeeds
    · refine Or.inr ⟨⟨.invalidOperation, ?_⟩, large⟩
      rw [convertToUsd, product]
      exact fails
  · have reaches : (10 : ℚ) ^ (26 : ℤ) ≤
        |Context.default.rounded (amountNumber * rateNumber)| :=
      (ten_zpow_le (by decide)).trans large
    refine Or.inr ⟨⟨.overflow, ?_⟩, power_le_abs_roundAt (by decide) reaches⟩
    rw [convertToUsd, overflow]
    rfl

/-- The value of a conversion that returns. -/
theorem value_of_convertToUsd {amount rate amountUsd : Decimal}
    {amountNumber rateNumber : ℚ}
    (amountValue : amount.value = some amountNumber)
    (rateValue : rate.value = some rateNumber)
    (converted : convertToUsd amount rate = .ok amountUsd) :
    amountUsd.value = some (convertedNumber amountNumber rateNumber) ∧
      |convertedNumber amountNumber rateNumber| < 10 ^ (26 : ℤ) := by
  rcases convertToUsd_spec amountValue rateValue with
    ⟨negative, coefficient, returned, same, small⟩ | ⟨⟨signal, raised⟩, _⟩
  · rw [returned] at converted
    cases converted
    exact ⟨by rw [value_finite, same], small⟩
  · rw [raised] at converted
    cases converted

/-! ## Sign and order -/

theorem convertedNumber_neg (amount rate : ℚ) :
    convertedNumber (-amount) rate = -convertedNumber amount rate := by
  rw [convertedNumber, neg_mul, Context.rounded_neg, roundAt_neg,
    convertedNumber]

theorem convertedNumber_mono {smaller larger rate : ℚ} (le : smaller ≤ larger)
    (nonneg : 0 ≤ rate) :
    convertedNumber smaller rate ≤ convertedNumber larger rate :=
  roundAt_mono usdQuant
    (Context.default.rounded_mono (by decide)
      (mul_le_mul_of_nonneg_right le nonneg))

/-- A refund cancels its charge to the cent, and a larger amount never
converts to less. -/
theorem conversion_keeps_sign_and_order {amount rate amountUsd : Decimal}
    {amountNumber rateNumber : ℚ}
    (amountValue : amount.value = some amountNumber)
    (rateValue : rate.value = some rateNumber)
    (converted : convertToUsd amount rate = .ok amountUsd) :
    ∃ usdNumber, amountUsd.value = some usdNumber ∧
      (∀ refund : Decimal, refund.value = some (-amountNumber) →
        ∃ refundUsd, convertToUsd refund rate = .ok refundUsd ∧
          refundUsd.value = some (-usdNumber)) ∧
      ∀ (other otherUsd : Decimal) (otherNumber : ℚ),
        other.value = some otherNumber →
        convertToUsd other rate = .ok otherUsd →
        amountNumber ≤ otherNumber → 0 ≤ rateNumber →
        ∃ otherUsdNumber, otherUsd.value = some otherUsdNumber ∧
          usdNumber ≤ otherUsdNumber := by
  obtain ⟨value, small⟩ :=
    value_of_convertToUsd amountValue rateValue converted
  refine ⟨convertedNumber amountNumber rateNumber, value, ?_, ?_⟩
  · intro refund refundValue
    rcases convertToUsd_spec refundValue rateValue with
      ⟨negative, coefficient, returned, same, _⟩ | ⟨_, large⟩
    · refine ⟨_, returned, ?_⟩
      rw [value_finite, same, convertedNumber_neg]
    · rw [convertedNumber_neg, abs_neg] at large
      exact absurd small (not_lt.mpr large)
  · intro other otherUsd otherNumber otherValue otherConverted le nonneg
    exact ⟨_, (value_of_convertToUsd otherValue rateValue otherConverted).1,
      convertedNumber_mono le nonneg⟩

/-- A charge of 1.005 at rate 1, its refund, and a charge of 1.015. -/
theorem conversion_keeps_sign_and_order_half_cent :
    ∃ usdNumber : ℚ,
      (Decimal.finite false 100 (-2)).value = some usdNumber ∧
        (∃ refundUsd,
          convertToUsd (.finite true 10050 (-4)) (.finite false 1 0) =
              .ok refundUsd ∧
            refundUsd.value = some (-usdNumber)) ∧
        ∃ otherUsdNumber : ℚ,
          (Decimal.finite false 102 (-2)).value = some otherUsdNumber ∧
            usdNumber ≤ otherUsdNumber := by
  obtain ⟨usdNumber, value, refunds, ordered⟩ :=
    conversion_keeps_sign_and_order
      (show (Decimal.finite false 1005 (-3)).value = some (1005 / 1000) by
        norm_num [Decimal.value, Decimal.signed])
      (show (Decimal.finite false 1 0).value = some 1 by
        norm_num [Decimal.value, Decimal.signed])
      (show convertToUsd (.finite false 1005 (-3)) (.finite false 1 0) =
          .ok (.finite false 100 (-2)) by decide)
  refine ⟨usdNumber, value, ?_, ?_⟩
  · apply refunds
    norm_num [Decimal.value, Decimal.signed]
  · apply ordered (.finite false 1015 (-3)) _ (1015 / 1000)
    · norm_num [Decimal.value, Decimal.signed]
    · decide
    · norm_num
    · norm_num

/-! ## Numbers that fit the columns -/

/-- With twelve fractional digits and a magnitude below `10 ^ 16` the product
has at most 28 digits. -/
theorem rounded_product {amount rate : ℚ} {amountUnits rateUnits : ℤ}
    (amountDigits : amount * 10 ^ 4 = amountUnits)
    (rateDigits : rate * 10 ^ 8 = rateUnits)
    (small : |amount * rate| < 10 ^ (16 : ℤ)) :
    Context.default.rounded (amount * rate) = amount * rate := by
  have grid : amount * rate =
      ((amountUnits * rateUnits : ℤ) : ℚ) * 10 ^ (-12 : ℤ) := by
    push_cast
    rw [← amountDigits, ← rateDigits]
    norm_num
    ring
  have place : Context.default.lastPlace (amount * rate) ≤ -12 :=
    Context.default.lastPlace_le small (by decide) (by decide) (by decide)
  rw [grid] at place ⊢
  exact Context.default.rounded_multiple place

/-- Numbers that fit their columns convert to the cents of the exact product,
or to so much that no row can hold it. -/
theorem convertedNumber_exact_or_large {amount rate : ℚ}
    (amountSmall : |amount| < 10 ^ 14)
    (amountDigits : ∃ count : ℤ, amount * 10 ^ 4 = count)
    (rateSmall : |rate| < 10 ^ 10)
    (rateDigits : ∃ count : ℤ, rate * 10 ^ 8 = count) :
    |convertedNumber amount rate| < 10 ^ (26 : ℤ) ∧
      (convertedNumber amount rate = roundAt usdQuant (amount * rate) ∨
        10 ^ (14 : ℤ) ≤ |convertedNumber amount rate| ∧
          10 ^ (14 : ℤ) ≤ |roundAt usdQuant (amount * rate)|) := by
  obtain ⟨amountUnits, amountDigits⟩ := amountDigits
  obtain ⟨rateUnits, rateDigits⟩ := rateDigits
  have product : |amount * rate| < 10 ^ (24 : ℤ) := by
    rw [abs_mul]
    calc |amount| * |rate|
        < 10 ^ 14 * 10 ^ 10 :=
          mul_lt_mul'' amountSmall rateSmall (abs_nonneg _) (abs_nonneg _)
      _ = 10 ^ (24 : ℤ) := by norm_num
  have place : Context.default.lastPlace (amount * rate) ≤ -4 :=
    Context.default.lastPlace_le product (by decide) (by decide) (by decide)
  have bounded : |convertedNumber amount rate| ≤ 10 ^ (24 : ℤ) :=
    abs_roundAt_le_power (by decide)
      (abs_roundAt_le_power (by omega) product.le)
  refine ⟨bounded.trans_lt (by norm_num), ?_⟩
  by_cases small : |amount * rate| < 10 ^ (16 : ℤ)
  · have exact : Context.default.rounded (amount * rate) = amount * rate :=
      rounded_product amountDigits rateDigits small
    exact Or.inl (by rw [convertedNumber, exact])
  · -- only here can the product lose digits, and then it is out of range
    have large : 10 ^ (14 : ℤ) ≤ |amount * rate| :=
      (ten_zpow_le (by decide)).trans (not_lt.mp small)
    exact Or.inr
      ⟨power_le_abs_roundAt (by decide)
          (power_le_abs_roundAt (by omega) large),
        power_le_abs_roundAt (by decide) large⟩

/-- Cents of magnitude `10 ^ 14` or more do not fit `Numeric(18, 4)`. -/
theorem numeric18_cents_eq_error {negative : Bool} {coefficient : ℕ}
    (large : 10 ^ (14 : ℤ) ≤ |number negative coefficient usdQuant|) :
    numeric18 4 (.finite negative coefficient usdQuant) = .error "22003" := by
  have cents : (10 : ℚ) ^ (16 : ℤ) ≤ coefficient := by
    rw [abs_number, show usdQuant = -2 from rfl] at large
    have scaled := mul_le_mul_of_nonneg_right large
      (ten_zpow_pos 2).le
    rw [mul_assoc, ← zpow_add₀ (by norm_num), ← zpow_add₀ (by norm_num)]
      at scaled
    simpa using scaled
  have centsNat : 10 ^ 16 ≤ coefficient := by exact_mod_cast cents
  have overflow : ¬ coefficient * 10 ^ 2 < 10 ^ 18 := by omega
  have units : Numeric.unitsOf 4 coefficient usdQuant = coefficient * 10 ^ 2 :=
    rfl
  rw [numeric18, Numeric.coerce, units, if_neg overflow]

theorem toColumns_ne_ok {zone : LocalZone} {row : ProcessedTransaction}
    {sqlstate : String} (rejected : numeric18 4 row.amountUsd = .error sqlstate)
    (stored : StoredTransaction) : row.toColumns zone ≠ .ok stored := by
  intro accepted
  have written := (ProcessedTransaction.storedAs_of_toColumns accepted).amountUsd
  rw [numeric18, written] at rejected
  cases rejected

/-- A conversion of numbers that fit their columns returns cents: those of
the exact product, rounded once, or so many that no row can hold them. -/
theorem conversion_is_exact_or_unstorable {amount rate : Decimal}
    {amountNumber rateNumber : ℚ}
    (amountValue : amount.value = some amountNumber)
    (amountSmall : |amountNumber| < 10 ^ 14)
    (amountDigits : ∃ count : ℤ, amountNumber * 10 ^ 4 = count)
    (rateValue : rate.value = some rateNumber)
    (rateSmall : |rateNumber| < 10 ^ 10)
    (rateDigits : ∃ count : ℤ, rateNumber * 10 ^ 8 = count) :
    ∃ negative coefficient,
      convertToUsd amount rate = .ok (.finite negative coefficient (-2)) ∧
        (number negative coefficient (-2) =
            roundAt (-2) (amountNumber * rateNumber) ∨
          10 ^ 14 ≤ |number negative coefficient (-2)| ∧
            numeric18 4 (.finite negative coefficient (-2)) =
              .error "22003" ∧
            ∀ zone (row : ProcessedTransaction) stored,
              row.amountUsd = .finite negative coefficient (-2) →
                row.toColumns zone ≠ .ok stored) := by
  obtain ⟨bounded, computed⟩ :=
    convertedNumber_exact_or_large amountSmall amountDigits rateSmall rateDigits
  rcases convertToUsd_spec amountValue rateValue with
    ⟨negative, coefficient, returned, same, _⟩ | ⟨_, large⟩
  · refine ⟨negative, coefficient, returned, ?_⟩
    rw [← same] at computed
    rcases computed with exact | ⟨large, _⟩
    · exact Or.inl exact
    · have rejected := numeric18_cents_eq_error large
      refine Or.inr ⟨by exact_mod_cast large, rejected, ?_⟩
      intro zone row stored holds
      have refused : numeric18 4 row.amountUsd = .error "22003" := by
        rw [holds]
        exact rejected
      exact toColumns_ne_ok refused stored
  · exact absurd bounded (not_lt.mpr large)

/-- The largest amount at the rate 1.1, and the rate with its trailing
zeros. -/
theorem conversion_is_exact_or_unstorable_largest :
    ∃ negative coefficient,
      convertToUsd (.finite false 999999999999999999 (-4))
            (.finite false 110000000 (-8)) =
          .ok (.finite negative coefficient (-2)) ∧
        (number negative coefficient (-2) =
            roundAt (-2) (999999999999999999 / 10 ^ 4 * (11 / 10)) ∨
          10 ^ 14 ≤ |number negative coefficient (-2)| ∧
            numeric18 4 (.finite negative coefficient (-2)) =
              .error "22003" ∧
            ∀ zone (row : ProcessedTransaction) stored,
              row.amountUsd = .finite negative coefficient (-2) →
                row.toColumns zone ≠ .ok stored) := by
  apply conversion_is_exact_or_unstorable
  · norm_num [Decimal.value, Decimal.signed]
  · rw [abs_of_nonneg (by norm_num)]
    norm_num
  · exact ⟨999999999999999999, by norm_num⟩
  · norm_num [Decimal.value, Decimal.signed]
  · rw [abs_of_nonneg (by norm_num)]
    norm_num
  · exact ⟨110000000, by norm_num⟩

end TxnEvents
