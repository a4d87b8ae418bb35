import TxnEvents.Ledger.AuditTrail

/-!
# What a malformed rate does to the ledger

The rate of a successful answer is any decimal.  The conversion refuses
infinities and signaling NaNs, and the columns refuse what is too large; a
quiet NaN, and a number that the rate column does not keep above zero, are
stored.  One stored NaN makes the summary of its user fail from then on.
-/

namespace TxnEvents

open Effects Arith Python

/-! ## Rows and rates -/

/-- The rate of the row is a positive number, and the amount in USD is a
number. -/
structure Sound (row : StoredTransaction) : Prop where
  rate : ∃ number, row.rate.value = some number ∧ 0 < number
  amountUsd : ∃ number, row.amountUsd.value = some number

/-- The rate is no quiet NaN, and a number only when its column keeps it above
zero or has no room for it. -/
structure UsableRate (rate : Decimal) : Prop where
  notNaN : rate ≠ .nan false
  number : ∀ number, rate.value = some number →
    5 / 10 ^ 9 ≤ number ∨ number ≤ 5 / 10 ^ 9 - 10 ^ 10

/-- The service has answered usable rates only. -/
def AnswersUsable (state : State) : Prop :=
  ∀ task currency rate, .rateAnswered task currency rate ∈ state.history →
    UsableRate rate

section Rows

variable {world : World} {state : State} {source : Source}
  {row : StoredTransaction}

/-- A stored number has room in its column. -/
theorem lt_of_stored
    {rate : Decimal}
    {rateNumber : ℚ}
    (rateValue : rate.value = some rateNumber)
    (written : Numeric.coerce 18 8 rate = some row.rate) :
    5 / 10 ^ 9 - 10 ^ 10 < rateNumber := by
  by_contra large
  rw [not_lt] at large
  rcases Numeric.coerce_spec rateValue written with
    ⟨value, count, units, bounded⟩
  rw [units, Numeric.value, Option.some_inj, Numeric.kept] at value
  have power : (10 : ℚ) ^ 8 ≠ 0 := by norm_num
  have same : count = Numeric.nearestAway (rateNumber * 10 ^ 8) := by
    exact_mod_cast (div_left_inj' power).mp value
  have reached : 10 ^ 18 ≤ Numeric.nearestAway (-(rateNumber * 10 ^ 8)) := by
    apply (Numeric.le_nearestAway_iff (by norm_num)).mpr
    push_cast
    linarith
  rw [Numeric.nearestAway_neg, ← same] at reached
  rw [abs_lt] at bounded
  omega

/-- Among the rates that are stored, exactly the usable ones make sound
rows. -/
theorem sound_iff_usableRate
    (from_ : StoredFrom world state source row) :
    Sound row ↔ UsableRate source.rate := by
  have numbers := numbers_of_storedFrom from_
  rcases from_ with ⟨valid, process, accepted⟩
  have columns := ProcessedTransaction.storedAs_of_toColumns accepted
  rcases numbers with
    ⟨amountNumber, rateNumber, amountValue, rateValue⟩ | ⟨nan, rate, _⟩
  · have room := lt_of_stored rateValue columns.rate
    have keptValue := (Numeric.coerce_spec rateValue columns.rate).1
    have threshold : 0 < Numeric.kept 8 rateNumber ↔
        5 / 10 ^ 9 ≤ rateNumber := by
      rw [Numeric.kept_pos_iff]
      constructor
      · intro half
        linarith
      · intro least
        linarith
    constructor
    · rintro ⟨⟨number, value, positive⟩, _⟩
      rw [keptValue] at value
      cases value
      constructor
      · intro nan
        rw [nan] at rateValue
        cases rateValue
      · intro other valued
        rw [rateValue] at valued
        cases valued
        exact Or.inl (threshold.mp positive)
    · intro usable
      rcases usable.number rateNumber rateValue with least | large
      · exact {
          rate := ⟨_, keptValue, threshold.mpr least⟩
          amountUsd := ⟨_, (value_of_stored_amountUsd amountValue rateValue
            valid.converted columns.amountUsd).1⟩ }
      · exact absurd room (not_lt.mpr large)
  · constructor
    · rintro ⟨⟨number, value, _⟩, _⟩
      rw [rate] at value
      cases value
    · intro usable
      exact absurd nan usable.notNaN

/-- A stored amount in USD is NaN exactly when the rate was. -/
theorem amountUsd_eq_nan_iff
    (from_ : StoredFrom world state source row) :
    row.amountUsd = .nan ↔ source.rate = .nan false := by
  rcases numbers_of_storedFrom from_ with
    ⟨amountNumber, rateNumber, amountValue, rateValue⟩ | ⟨nan, _, amountUsd⟩
  · rcases from_ with ⟨valid, process, accepted⟩
    have columns := ProcessedTransaction.storedAs_of_toColumns accepted
    have value := (value_of_stored_amountUsd amountValue rateValue
      valid.converted columns.amountUsd).1
    constructor
    · intro nan
      rw [nan] at value
      cases value
    · intro nan
      rw [nan] at rateValue
      cases rateValue
  · exact iff_of_true amountUsd nan

end Rows

/-! ## Summaries -/

section Summaries

variable {world : World} {table : Table} {userId : String}

/-- The user is answered exactly when no amount in USD is NaN. -/
theorem exists_summary_iff :
    (∃ response, summaryOn table userId = .ok response) ↔
      ∀ row ∈ table, row.userId = userId → row.amountUsd ≠ .nan := by
  have total : (summaryOf table userId).1.toDecimal.isFinite = true ↔
      ∀ row ∈ table, row.userId = userId → row.amountUsd ≠ .nan := by
    rw [Numeric.isFinite_toDecimal_iff, summaryOf, Ne,
      Numeric.sum_eq_nan_iff, List.mem_map, not_exists]
    constructor
    · intro noNaN row member sameUser nan
      exact noNaN row ⟨List.mem_filter.mpr ⟨member, by simpa using sameUser⟩,
        nan⟩
    · rintro noNaN row ⟨inside, nan⟩
      rcases List.mem_filter.mp inside with ⟨member, sameUser⟩
      exact noNaN row member (by simpa using sameUser) nan
  rw [← total, summaryOn, summaryResponse]
  constructor
  · rintro ⟨response, answered⟩
    by_contra notFinite
    rw [dif_neg notFinite] at answered
    cases answered
  · intro finite
    exact ⟨_, dif_pos finite⟩

/-- A user with a NaN is not answered on any later table. -/
theorem summary_fails_of_nan
    {later : Table}
    {row : StoredTransaction}
    (grown : table <+: later)
    (member : row ∈ table)
    (nan : row.amountUsd = .nan)
    (response : UserSummary) :
    summaryOn later row.userId ≠ .ok response := by
  intro answered
  exact exists_summary_iff.mp ⟨response, answered⟩ row (grown.subset member)
    rfl nan

end Summaries

/-! ## Runs -/

/-- Nothing malformed is in the ledger. -/
structure WellFormed (table : Table) : Prop where
  rows : ∀ row ∈ table, Sound row
  /-- The total of every user is a number that the response model accepts. -/
  summaries : ∀ userId, ∃ response, summaryOn table userId = .ok response

/-- The accepted event is in a dead letter or in a sound row. -/
def BuriedOrSound (world : World) (state : State) (body : EventBody)
    (id : Nat) : Prop :=
  InDeadLetters world state body id ∨
    ∃ row ∈ state.db.table, row.id = body.id ∧ Sound row

section Runs

variable {world : World} {permit : AppPermit} {config : AppConfig}

theorem sound_of_answersUsable
    (reaches : Reaches world permit config)
    (usable : AnswersUsable config.shared) :
    ∀ row ∈ config.shared.db.table, Sound row := by
  intro row member
  rcases (reaches_safe_of_any reaches).db.sourced row member with
    ⟨source, from_⟩
  rcases from_.1.answered with ⟨task, answered⟩
  exact (sound_iff_usableRate from_).mpr (usable task _ _ answered)

theorem wellFormed_of_rows
    {table : Table}
    (rows : ∀ row ∈ table, Sound row) : WellFormed table where
  rows := rows
  summaries := by
    intro userId
    apply exists_summary_iff.mpr
    intro row member _ nan
    rcases (rows row member).amountUsd with ⟨number, value⟩
    rw [nan] at value
    cases value

/-- Where trimming spares unfinished entries, a delivery that has ended left a
dead letter or a row. -/
theorem buriedOrSound_of_retired
    (reaches : Reaches world (sparing True world) config)
    (rows : ∀ row ∈ config.shared.db.table, Sound row)
    {body : EventBody}
    {id : Nat}
    (accepted : Accepted config.shared body id)
    (retired : config.shared.Retired id) :
    BuriedOrSound world config.shared body id := by
  rcases safekept_of_sparing reaches accepted with
    undelivered | pending | stored | buried
  · exact absurd retired.1 undelivered.2
  · exact absurd pending.2 retired.2
  · rcases List.mem_map.mp stored with ⟨row, member, sameId⟩
    exact Or.inr ⟨row, member, sameId, rows row member⟩
  · exact Or.inl buried

/-- A row is sound exactly when its rate is usable, a user is answered exactly
when no rate of the user's rows is NaN, and in a run with usable rates only,
nothing malformed is in the ledger. -/
theorem malformed_rates_stay_out_iff
    (reaches : Reaches world permit config) :
    (∀ row ∈ config.shared.db.table, Sourced world config.shared row ∧
        ∀ source, StoredFrom world config.shared source row →
          (Sound row ↔ UsableRate source.rate)) ∧
      (∀ userId,
        (∃ response, summaryOn config.shared.db.table userId = .ok response) ↔
          ∀ row ∈ config.shared.db.table, row.userId = userId →
            ∀ source, StoredFrom world config.shared source row →
              source.rate ≠ .nan false) ∧
        (AnswersUsable config.shared →
          WellFormed config.shared.db.table ∧
            (Reaches world (sparing True world) config →
              ∀ body id, Accepted config.shared body id →
                config.shared.Retired id →
                  BuriedOrSound world config.shared body id)) := by
  have sourced := (reaches_safe_of_any reaches).db.sourced
  refine ⟨?_, ?_, ?_⟩
  · intro row member
    exact ⟨sourced row member, fun source from_ => sound_iff_usableRate from_⟩
  · intro userId
    rw [exists_summary_iff]
    constructor
    · intro noNaN row member sameUser source from_ nan
      exact noNaN row member sameUser ((amountUsd_eq_nan_iff from_).mpr nan)
    · intro noNaN row member sameUser nan
      rcases sourced row member with ⟨source, from_⟩
      exact noNaN row member sameUser source from_
        ((amountUsd_eq_nan_iff from_).mp nan)
  · intro usable
    have rows := sound_of_answersUsable reaches usable
    refine ⟨wellFormed_of_rows rows, ?_⟩
    intro spared body id accepted retired
    exact buriedOrSound_of_retired spared rows accepted retired

end Runs

/-! ## Two runs -/

/-- All rates that the service has answered are this one. -/
def answeredOnly (rate : Decimal) : Happening → Bool
  | .rateAnswered _ _ other => other = rate
  | _ => true

/-- Whether the first message was handed out and is not pending any more. -/
def showsRetired (config : AppConfig) : Bool :=
  config.shared.redis.group.any fun group =>
    decide (0 < group.lastDelivered) && !decide (group.Pending 0)

theorem retired_of_shows
    {config : AppConfig}
    (shown : showsRetired config = true) : config.shared.Retired 0 := by
  rcases (Option.any_eq_true _ _).mp shown with ⟨group, found, here⟩
  rw [Bool.and_eq_true, decide_eq_true_eq, Bool.not_eq_true',
    decide_eq_false_iff_not] at here
  refine ⟨⟨group, found, here.1⟩, ?_⟩
  rintro ⟨other, same, pending⟩
  rw [found] at same
  cases same
  exact here.2 pending

theorem malformed_rates_stay_out_iff_coffee :
    ∃ config, Reaches (coffeeWorld unbounded) Permit.any config ∧
      WellFormed config.shared.db.table ∧
        BuriedOrSound (coffeeWorld unbounded) config.shared coffee 0 := by
  have taken : ((system (coffeeWorld unbounded)).run Guard.any start
      (post 0 coffee {} ++ launch 0 ++
        storeOne 0 (.finite false 11 (-1)))).any
        (fun config =>
          config.shared.history.contains coffeeAccepted &&
            config.shared.history.all (answeredOnly (.finite false 11 (-1))) &&
            showsRetired config) = true := by decide +kernel
  rcases reaches_of_run respects_any taken with ⟨config, reaches, shown⟩
  simp only [Bool.and_eq_true] at shown
  rcases shown with ⟨⟨answered, only⟩, retired⟩
  have usable : AnswersUsable config.shared := by
    intro task currency rate member
    have same : rate = .finite false 11 (-1) := by
      simpa [answeredOnly] using List.all_eq_true.mp only _ member
    rw [same]
    constructor
    · decide
    · intro number value
      cases value
      left
      norm_num [Decimal.signed]
  have stays := (malformed_rates_stay_out_iff reaches).2.2 usable
  exact ⟨config, reaches, stays.1, stays.2 (sparing_of_unbounded rfl reaches)
    coffee 0 (accepted_coffee (List.contains_iff_mem.mp answered))
      (retired_of_shows retired)⟩

/-- With `{"rate": "NaN"}` the coffee is stored and acknowledged, and from then
on the summary of its user fails. -/
theorem nan_rate_reaches_the_ledger :
    ∃ config, Reaches (coffeeWorld {}) Permit.any config ∧
      Accepted config.shared coffee 0 ∧ config.shared.Retired 0 ∧
        config.shared.redis.deadLetters = [] ∧
          ∃ row ∈ config.shared.db.table, row.id = coffee.id ∧ ¬ Sound row ∧
            ∀ after,
              (system (coffeeWorld {})).Reachable Permit.any config after →
              ∀ response,
                summaryOn after.shared.db.table row.userId ≠ .ok response := by
  have taken : ((system (coffeeWorld {})).run Guard.any start
      (post 0 coffee {} ++ launch 0 ++ storeOne 0 (.nan false))).any
        (fun config =>
          config.shared.history.contains coffeeAccepted &&
            showsRetired config &&
            decide (config.shared.redis.deadLetters = []) &&
            decide (∃ row ∈ config.shared.db.table, row.id = coffee.id ∧
              row.rate = .nan ∧ row.amountUsd = .nan)) = true := by
    decide +kernel
  rcases reaches_of_run respects_any taken with ⟨config, reaches, shown⟩
  simp only [Bool.and_eq_true, decide_eq_true_eq] at shown
  rcases shown with
    ⟨⟨⟨answered, retired⟩, letters⟩, row, member, sameId, nanRate, nanUsd⟩
  refine ⟨config, reaches,
    accepted_coffee (List.contains_iff_mem.mp answered),
    retired_of_shows retired, letters, row, member, sameId, ?_, ?_⟩
  · rintro ⟨⟨number, value, _⟩, _⟩
    rw [nanRate] at value
    cases value
  · intro after later response
    exact summary_fails_of_nan (reachable_grows later).table member nanUsd
      response

end TxnEvents
