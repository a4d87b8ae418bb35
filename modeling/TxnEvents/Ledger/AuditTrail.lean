import TxnEvents.Ledger.Fidelity
import TxnEvents.Services.Conversion

/-!
# The audit trail of a row

A row keeps the amount, the rate and the amount in USD, each rounded to its
column.  The conversion ran before the rounding, so the row explains its own
amount in USD exactly when rounding the factors moves their product across no
half cent.
-/

namespace TxnEvents

open Effects Arith

/-- Converting the amount of the row at its rate gives its amount in USD.  As
in the database, NaN is NaN. -/
def Explains (row : StoredTransaction) : Prop :=
  ∃ amountUsd,
    convertToUsd row.amount.toDecimal row.rate.toDecimal = .ok amountUsd ∧
      amountUsd.value = row.amountUsd.value

/-- No half cent lies between the 28-digit product of the numbers and the
product of what their columns keep. -/
def NoHalfCentBetween (amount rate : ℚ) : Prop :=
  ∀ cents : ℤ,
    PassesMidpoint cents
        (Context.default.rounded (amount * rate) / 10 ^ usdQuant) ↔
      PassesMidpoint cents
        (Numeric.kept 4 amount * Numeric.kept 8 rate / 10 ^ usdQuant)

/-- The columns of amount and rate are wide enough for the cents of their
product. -/
def CentsSurvive (amount rate : Decimal) : Prop :=
  ∀ amountNumber rateNumber,
    amount.value = some amountNumber → rate.value = some rateNumber →
      NoHalfCentBetween amountNumber rateNumber

theorem noHalfCentBetween_iff (amount rate : ℚ) :
    NoHalfCentBetween amount rate ↔
      convertedNumber amount rate =
        roundAt usdQuant (Numeric.kept 4 amount * Numeric.kept 8 rate) := by
  have nonzero := (ten_zpow_pos usdQuant).ne'
  rw [convertedNumber, roundAt, roundAt, mul_left_inj' nonzero, Int.cast_inj,
    roundEven_eq_iff]
  rfl

/-! ## What the columns keep -/

section Stored

variable {row : StoredTransaction} {amount rate amountUsd : Decimal}
  {amountNumber rateNumber : ℚ}

/-- The value of a column is a number of its units, and of bounded size. -/
theorem kept_bounds {scale : ℕ} {decimal : Decimal} {stored : Numeric scale}
    {exact : ℚ} (valued : decimal.value = some exact)
    (written : Numeric.coerce 18 scale decimal = some stored) :
    stored.toDecimal.value = some (Numeric.kept scale exact) ∧
      |Numeric.kept scale exact| * 10 ^ scale < 10 ^ 18 ∧
        ∃ count : ℤ, Numeric.kept scale exact * 10 ^ scale = count := by
  obtain ⟨value, count, rfl, bounded⟩ := Numeric.coerce_spec valued written
  have positive : (0 : ℚ) < 10 ^ scale := by positivity
  have units : Numeric.kept scale exact * 10 ^ scale = count := by
    rw [Numeric.value, Option.some.injEq] at value
    rw [← value, div_mul_cancel₀ _ positive.ne']
  refine ⟨by rw [Numeric.value_toDecimal, value], ?_, count, units⟩
  calc |Numeric.kept scale exact| * 10 ^ scale
      = |Numeric.kept scale exact * 10 ^ scale| := by
        rw [abs_mul, abs_of_pos positive]
    _ = |(count : ℚ)| := by rw [units]
    _ < 10 ^ 18 := by exact_mod_cast bounded

/-- Cents are kept as they are by a column with four fractional digits. -/
theorem value_of_stored_amountUsd
    (amountValue : amount.value = some amountNumber)
    (rateValue : rate.value = some rateNumber)
    (converted : convertToUsd amount rate = .ok amountUsd)
    (written : Numeric.coerce 18 4 amountUsd = some row.amountUsd) :
    row.amountUsd.value = some (convertedNumber amountNumber rateNumber) ∧
      |convertedNumber amountNumber rateNumber| < 10 ^ (14 : ℤ) := by
  obtain ⟨value, _⟩ := value_of_convertToUsd amountValue rateValue converted
  have digits : convertedNumber amountNumber rateNumber * 10 ^ 4 =
      ((roundEven (Context.default.rounded (amountNumber * rateNumber) /
        10 ^ usdQuant) * 100 : ℤ) : ℚ) := by
    rw [convertedNumber, roundAt, show usdQuant = -2 from rfl]
    push_cast
    rw [mul_assoc]
    norm_num
  obtain ⟨keptValue, bounded, _⟩ := kept_bounds value written
  rw [Numeric.value_toDecimal] at keptValue
  rw [Numeric.kept_eq_self digits] at keptValue bounded
  refine ⟨keptValue, ?_⟩
  norm_num at bounded ⊢
  linarith

/-- A row built from finite numbers explains itself exactly when no half cent
lies between the products. -/
theorem explains_iff_of_finite
    (amountValue : amount.value = some amountNumber)
    (rateValue : rate.value = some rateNumber)
    (converted : convertToUsd amount rate = .ok amountUsd)
    (amountWritten : Numeric.coerce 18 4 amount = some row.amount)
    (rateWritten : Numeric.coerce 18 8 rate = some row.rate)
    (amountUsdWritten : Numeric.coerce 18 4 amountUsd = some row.amountUsd) :
    Explains row ↔ NoHalfCentBetween amountNumber rateNumber := by
  obtain ⟨amountKept, amountBound, amountDigits⟩ :=
    kept_bounds amountValue amountWritten
  obtain ⟨rateKept, rateBound, rateDigits⟩ :=
    kept_bounds rateValue rateWritten
  obtain ⟨storedValue, storedSmall⟩ :=
    value_of_stored_amountUsd amountValue rateValue converted amountUsdWritten
  have amountSmall : |Numeric.kept 4 amountNumber| < 10 ^ 14 := by
    norm_num at amountBound ⊢
    linarith
  have rateSmall : |Numeric.kept 8 rateNumber| < 10 ^ 10 := by
    norm_num at rateBound ⊢
    linarith
  obtain ⟨bounded, computed⟩ :=
    convertedNumber_exact_or_large amountSmall amountDigits rateSmall rateDigits
  have returns : ∃ again,
      convertToUsd row.amount.toDecimal row.rate.toDecimal = .ok again ∧
        again.value = some (convertedNumber (Numeric.kept 4 amountNumber)
          (Numeric.kept 8 rateNumber)) := by
    rcases convertToUsd_spec amountKept rateKept with
      ⟨negative, coefficient, returned, same, _⟩ | ⟨_, large⟩
    · exact ⟨_, returned, by rw [value_finite, same]⟩
    · exact absurd bounded (not_lt.mpr large)
  obtain ⟨again, returned, value⟩ := returns
  have explains : Explains row ↔
      convertedNumber (Numeric.kept 4 amountNumber)
          (Numeric.kept 8 rateNumber) =
        convertedNumber amountNumber rateNumber := by
    constructor
    · rintro ⟨other, otherReturned, same⟩
      rw [returned] at otherReturned
      cases otherReturned
      rw [value, storedValue] at same
      exact Option.some.inj same
    · intro same
      exact ⟨again, returned, by rw [value, storedValue, same]⟩
  rw [explains, noHalfCentBetween_iff]
  rcases computed with exact | ⟨large, exactLarge⟩
  · rw [exact]
    exact eq_comm
  · -- out of range on both sides of the equivalence
    constructor
    · intro same
      rw [same] at large
      exact absurd storedSmall (not_lt.mpr large)
    · intro same
      rw [← same] at exactLarge
      exact absurd storedSmall (not_lt.mpr exactLarge)

end Stored

/-- A rate that is not a number makes a row of NaNs. -/
theorem rate_of_converted {amount rate amountUsd : Decimal}
    (finite : amount.isFinite = true)
    (converted : convertToUsd amount rate = .ok amountUsd) :
    rate.isFinite = true ∨ rate = .nan false ∧ amountUsd = .nan false := by
  cases amount with
  | infinity negative => cases finite
  | nan signaling => cases finite
  | finite negative coefficient exponent =>
      cases rate with
      | finite _ _ _ => exact Or.inl rfl
      | nan signaling =>
          cases signaling with
          | false =>
              cases converted
              exact Or.inr ⟨rfl, rfl⟩
          | true => cases converted
      | infinity _ =>
          rw [convertToUsd, Decimal.mul] at converted
          split at converted
          · cases converted
          · cases converted

/-- A row is built from two numbers, or the rate was NaN and it holds NaNs. -/
theorem numbers_of_storedFrom {world : World} {state : State}
    {source : Source} {row : StoredTransaction}
    (from_ : StoredFrom world state source row) :
    (∃ amountNumber rateNumber,
        source.event.amount.value = some amountNumber ∧
          source.rate.value = some rateNumber) ∨
      source.rate = .nan false ∧ row.rate = .nan ∧ row.amountUsd = .nan := by
  obtain ⟨valid, process, accepted⟩ := from_
  have columns := ProcessedTransaction.storedAs_of_toColumns accepted
  have finite := source.event.amountFinite
  rcases rate_of_converted finite valid.converted with rateFinite | ⟨nan, nanUsd⟩
  · obtain ⟨amountNumber, amountValue⟩ := Decimal.exists_value finite
    obtain ⟨rateNumber, rateValue⟩ := Decimal.exists_value rateFinite
    exact Or.inl ⟨amountNumber, rateNumber, amountValue, rateValue⟩
  · have rateWritten : Numeric.coerce 18 8 source.rate = some row.rate :=
      columns.rate
    have usdWritten : Numeric.coerce 18 4 source.amountUsd =
        some row.amountUsd := columns.amountUsd
    rw [nan] at rateWritten
    rw [nanUsd] at usdWritten
    exact Or.inr ⟨nan, (Option.some.inj rateWritten).symm,
      (Option.some.inj usdWritten).symm⟩

theorem explains_iff_of_source {world : World} {state : State}
    {source : Source} {row : StoredTransaction}
    (from_ : StoredFrom world state source row) :
    Explains row ↔ CentsSurvive source.event.amount source.rate := by
  have numbers := numbers_of_storedFrom from_
  obtain ⟨valid, process, accepted⟩ := from_
  have columns := ProcessedTransaction.storedAs_of_toColumns accepted
  rcases numbers with
    ⟨amountNumber, rateNumber, amountValue, rateValue⟩ | ⟨nan, rate, amountUsd⟩
  · have exactly : Explains row ↔ NoHalfCentBetween amountNumber rateNumber :=
      explains_iff_of_finite amountValue rateValue valid.converted
        columns.amount columns.rate columns.amountUsd
    rw [exactly]
    constructor
    · intro together amount rate amountSame rateSame
      rw [amountValue] at amountSame
      rw [rateValue] at rateSame
      cases amountSame
      cases rateSame
      exact together
    · intro survives
      exact survives amountNumber rateNumber amountValue rateValue
  · have explains : Explains row := by
      refine ⟨.nan false, ?_, by rw [amountUsd]; rfl⟩
      obtain ⟨amountNumber, amountValue⟩ :=
        Decimal.exists_value source.event.amountFinite
      obtain ⟨_, count, units, _⟩ :=
        Numeric.coerce_spec amountValue columns.amount
      rw [rate, units]
      rfl
    have survives : CentsSurvive source.event.amount source.rate := by
      intro amount rate _ rateSame
      rw [nan] at rateSame
      cases rateSame
    exact iff_of_true explains survives

/-- Four fractional digits of the amount and eight of the rate are enough. -/
theorem explains_of_fits {world : World} {state : State} {source : Source}
    {row : StoredTransaction} (from_ : StoredFrom world state source row)
    {amountNumber rateNumber : ℚ}
    (amountValue : source.event.amount.value = some amountNumber)
    (amountDigits : ∃ count : ℤ, amountNumber * 10 ^ 4 = count)
    (rateValue : source.rate.value = some rateNumber)
    (rateDigits : ∃ count : ℤ, rateNumber * 10 ^ 8 = count) :
    Explains row := by
  obtain ⟨valid, process, accepted⟩ := from_
  have columns := ProcessedTransaction.storedAs_of_toColumns accepted
  obtain ⟨_, small⟩ :=
    value_of_stored_amountUsd amountValue rateValue valid.converted
      columns.amountUsd
  obtain ⟨_, amountBound, _⟩ := kept_bounds amountValue columns.amount
  obtain ⟨_, rateBound, _⟩ := kept_bounds rateValue columns.rate
  obtain ⟨amountUnits, amountIntegral⟩ := amountDigits
  obtain ⟨rateUnits, rateIntegral⟩ := rateDigits
  have amountKept := Numeric.kept_eq_self amountIntegral
  have rateKept := Numeric.kept_eq_self rateIntegral
  rw [amountKept] at amountBound
  rw [rateKept] at rateBound
  have amountSmall : |amountNumber| < 10 ^ 14 := by
    norm_num at amountBound ⊢
    linarith
  have rateSmall : |rateNumber| < 10 ^ 10 := by
    norm_num at rateBound ⊢
    linarith
  have exactly : Explains row ↔ NoHalfCentBetween amountNumber rateNumber :=
    explains_iff_of_finite amountValue rateValue valid.converted
      columns.amount columns.rate columns.amountUsd
  rw [exactly, noHalfCentBetween_iff, amountKept, rateKept]
  obtain ⟨_, exact | ⟨large, _⟩⟩ :=
    convertedNumber_exact_or_large amountSmall ⟨_, amountIntegral⟩ rateSmall
      ⟨_, rateIntegral⟩
  · exact exact
  · exact absurd small (not_lt.mpr large)

/-- Every row was built from one delivered event and one answered rate, and
it explains itself exactly when the cents of their product survive the
columns. -/
theorem row_explains_itself_iff {world : World} {permit : AppPermit}
    {config : AppConfig} (reaches : Reaches world permit config)
    {row : StoredTransaction} (member : row ∈ config.shared.db.table) :
    Sourced world config.shared row ∧
      ∀ source, StoredFrom world config.shared source row →
        (Explains row ↔ CentsSurvive source.event.amount source.rate) :=
  ⟨(reaches_safe_of_any reaches).db.sourced row member,
    fun _ from_ => explains_iff_of_source from_⟩

theorem row_explains_itself_iff_coffee :
    ∃ config, Reaches (coffeeWorld {}) Permit.any config ∧
      ∃ row ∈ config.shared.db.table,
        Sourced (coffeeWorld {}) config.shared row ∧
          ∀ source, StoredFrom (coffeeWorld {}) config.shared source row →
            (Explains row ↔
              CentsSurvive source.event.amount source.rate) := by
  have taken : ((system (coffeeWorld {})).run Guard.any start
      (post 0 coffee {} ++ launch 0 ++
        storeOne 0 (.finite false 11 (-1)))).any
        (fun config => decide (config.shared.db.table ≠ [])) =
      true := by decide +kernel
  obtain ⟨config, reaches, stored⟩ := reaches_of_run respects_any taken
  obtain ⟨row, member⟩ := List.exists_mem_of_ne_nil _ (of_decide_eq_true stored)
  exact ⟨config, reaches, row, member, row_explains_itself_iff reaches member⟩

/-- An amount of 0.01496, which its column rounds to 0.0150. -/
def tip : EventBody where
  id := "tip"
  userId := "ada"
  amount := .finite false 1496 (-5)
  amountFinite := rfl
  currency := "usd"
  timestamp := ⟨0, none⟩

def tipWorld : World :=
  .small Settings.defaults
    [(TransactionEvent.validate .ascii
        ⟨(TransactionEventIn.validate .ascii tip).modelDump, ⟨0, some 0⟩⟩,
      "tip at noon")]
    (by decide) (by decide)

/-- The tip is stored with 0.01 USD at the rate 1, but 0.0150 converts to
0.02. -/
theorem tip_does_not_explain_itself :
    ∃ config, Reaches tipWorld Permit.any config ∧
      Accepted config.shared tip 0 ∧
        ∃ row ∈ config.shared.db.table,
          row.amount = .units 150 ∧ row.rate = .units 100000000 ∧
            row.amountUsd = .units 100 ∧ ¬ Explains row := by
  have taken : ((system tipWorld).run Guard.any start
      (post 0 tip {} ++ launch 0 ++ storeOne 0 (.finite false 1 0))).any
        (fun config =>
          config.shared.history.contains
              (.noted (.request 0)
                (.answered (.ingest tip) (.ok (.accepted ⟨"tip", 0⟩)))) &&
            decide (∃ row ∈ config.shared.db.table,
              row.amount = .units 150 ∧ row.rate = .units 100000000 ∧
                row.amountUsd = .units 100)) =
      true := by decide +kernel
  obtain ⟨config, reaches, shown⟩ := reaches_of_run respects_any taken
  simp only [Bool.and_eq_true, decide_eq_true_eq] at shown
  obtain ⟨answered, row, member, amount, rate, amountUsd⟩ := shown
  refine ⟨config, reaches,
    ⟨.request 0, ⟨"tip", 0⟩, List.contains_iff_mem.mp answered, rfl⟩,
    row, member, amount, rate, amountUsd, ?_⟩
  rintro ⟨usd, converted, same⟩
  have computed : convertToUsd row.amount.toDecimal row.rate.toDecimal =
      .ok (.finite false 2 (-2)) := by
    rw [amount, rate]
    decide
  rw [computed] at converted
  cases converted
  rw [amountUsd] at same
  norm_num [Decimal.value, Decimal.signed, Numeric.value] at same

end TxnEvents
