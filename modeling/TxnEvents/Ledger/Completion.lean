import TxnEvents.Delivery.Recovery
import TxnEvents.Ledger.Verdicts

/-!
# All runs can be completed to one ledger

A run that is complete, and has dead-lettered only what it had to, holds the
rows of exactly the published events that can be stored.  Every run that has
dead-lettered only what it had to can be completed like that.  So two runs over
the same events, stopped anywhere, can be completed to the same ledger.
-/

namespace TxnEvents

open Effects Arith Python Streams App

/-! ## Deserved letters survive recoveries -/

section Deserving

variable {world : World} {rates : Rates} {answer : String → HttpResponse}
  {permit : AppPermit} {config : AppConfig}

/-- A cached rate has been answered, and all answers are the constant ones. -/
theorem cacheFollows_of_reaches
    (reaches : Reaches world (constantRates rates) config) :
    CacheFollows rates config.shared := by
  intro process currency rate expiresAt found
  exact reaches_constantRates reaches
    ((reaches_safe_of_any reaches).cache process currency rate expiresAt found)

theorem endures_deserving : Endures world rates (Deserving world rates) where
  kill := by
    intro state name deserving
    have happened : happen world (.kill name) state (fun _ => none) =
      some (state.killWorker name, withoutWorker (fun _ => none) name) := rfl
    exact happen_deserving deserving happened
  boot := by
    intro state name deserving
    refine ⟨?_, fun letter member => deserving.letters letter member⟩
    refine deserving.caches.of_caches (caches_setLocal ?_)
    intro currency entry impossible
    cases impossible
  wait := by
    intro state passed deserving
    have happened : happen world (.tick passed) state (fun _ => none) =
      some (state.wait passed, fun _ => none) := rfl
    exact happen_deserving deserving happened
  runs := by
    intro task program before after outcome starts runs deserving
    exact (Discipline.runs_of_wp deserving starts.deserving runs).2

/-- Recoveries are runs with the constant rates. -/
theorem reaches_of_recovery {after : AppConfig}
    (serving : Serving rates answer permit)
    (reaches : Reaches world (constantRates rates) config)
    (recovery : (system world).Reachable permit config after) :
    Reaches world (constantRates rates) after := by
  have follows : (system world).Reachable (constantRates rates) config after :=
    System.Reachable.mono
      (fun _ _ _ _ permitted =>
        constantRates_of_recovering (serving.healthy permitted))
      (fun _ _ _ => trivial) recovery
  exact System.Reachable.trans reaches follows

end Deserving

/-! ## The ledger of a complete run -/

/-- Nothing is left to do, and nothing was dead-lettered that could have been
stored. -/
structure Final (world : World) (rates : Rates) (state : State) : Prop where
  complete : Complete state
  letters : ∀ letter ∈ state.redis.deadLetters,
    Hopeless world rates state letter.origin

section Ledger

variable {world : World} {rates : Rates} {config : AppConfig}

/-- A stored row is the row of a published event that can be stored. -/
theorem storable_of_stored
    (reaches : Reaches world (constantRates rates) config)
    {row : StoredTransaction} (member : row ∈ config.shared.db.table) :
    ∃ event ∈ published world config.shared,
      RowFor rates event row ∧ storable rates event = true := by
  rcases (reaches_safe_of_any reaches).db.sourced row member with
    ⟨source, valid, process, accepted⟩
  have columns := ProcessedTransaction.storedAs_of_toColumns accepted
  have known := reaches_constantRates reaches valid.answered
  refine ⟨source.event.toTransactionEventIn, ?_, ?_, ?_⟩
  · exact mem_published.mpr ⟨source.id, source.fields, source.event,
      valid.entry, valid.parsed, rfl⟩
  · exact {
      id := columns.id
      userId := columns.userId
      amount := columns.amount
      currency := columns.currency
      converted := ⟨source.rate, source.amountUsd, known, valid.converted,
        columns.rate, columns.amountUsd⟩
      timestamp := columns.timestamp }
  · simp only [storable, known, valid.converted]
    rw [fits_rowAt source.event source.rate source.amountUsd
      source.processedAt]
    exact fits_of_accepted accepted

/-- In a final state an event that can be stored is in the table. -/
theorem stored_of_storable
    (unbounded : world.settings.streamMaxlen = none)
    (reaches : Reaches world (constantRates rates) config)
    (final : Final world rates config.shared)
    {event : TransactionEventIn}
    (member : event ∈ published world config.shared)
    (fits : storable rates event = true) :
    ∃ row ∈ config.shared.db.table, row.id = event.id := by
  rcases mem_published.mp member with ⟨id, fields, parsed, entry, parses, rfl⟩
  have within : id < config.shared.redis.stream.entries.length := by
    rcases Option.bind_eq_some_iff.mp entry with ⟨wire, found, _⟩
    exact (List.getElem?_eq_some_iff.mp found).1
  rcases final.complete.accounted unbounded reaches within with
    ⟨found, present, account⟩
  rw [entry] at present
  cases present
  rcases account with ⟨letter, lettered, origin, _⟩ | ⟨stored, same, inTable⟩
  · rcases final.letters letter lettered with ⟨lost, lostEntry, never⟩
    rw [origin, entry] at lostEntry
    cases lostEntry
    rw [never parsed parses] at fits
    cases fits
  · rw [parses] at same
    cases same
    rcases List.mem_map.mp inTable with ⟨row, inside, rowId⟩
    exact ⟨row, inside, rowId⟩

/-- The ids of the events tell them apart. -/
def Functional (events : List TransactionEventIn) : Prop :=
  ∀ event ∈ events, ∀ other ∈ events, event.id = other.id → event = other

theorem Functional.perm {events others : List TransactionEventIn}
    (functional : Functional events) (same : events.Perm others) :
    Functional others :=
  fun event member other otherMember =>
    functional event (same.symm.subset member) other
      (same.symm.subset otherMember)

/-- The table of a final run holds one row for each published event that can
be stored, and nothing else. -/
theorem ledger_of_final
    (unbounded : world.settings.streamMaxlen = none)
    (reaches : Reaches world (constantRates rates) config)
    (final : Final world rates config.shared)
    (functional : Functional (published world config.shared)) :
    (∀ row ∈ config.shared.db.table, ∃ event ∈ published world config.shared,
      RowFor rates event row) ∧
    ∀ event ∈ published world config.shared,
      storable rates event = true ↔
        ∃ row ∈ config.shared.db.table, RowFor rates event row := by
  constructor
  · intro row member
    rcases storable_of_stored reaches member with ⟨event, listed, rowFor, _⟩
    exact ⟨event, listed, rowFor⟩
  · intro event listed
    constructor
    · intro fits
      rcases stored_of_storable unbounded reaches final listed fits with
        ⟨row, member, sameId⟩
      rcases storable_of_stored reaches member with ⟨origin, from_, rowFor, _⟩
      have equal : origin = event :=
        functional origin from_ event listed (rowFor.id.symm.trans sameId)
      rw [equal] at rowFor
      exact ⟨row, member, rowFor⟩
    · intro stored
      rcases stored with ⟨row, member, rowFor⟩
      rcases storable_of_stored reaches member with ⟨origin, from_, other, fits⟩
      have equal : origin = event :=
        functional origin from_ event listed (other.id.symm.trans rowFor.id)
      rwa [equal] at fits

end Ledger

/-! ## Two runs -/

section Two

variable {left right : World} {rates : Rates} {first second : AppConfig}

/-- What one final run has stored, another one over the same events has
stored too. -/
theorem undated_of_final
    (rightUnbounded : right.settings.streamMaxlen = none)
    (firstReaches : Reaches left (constantRates rates) first)
    (secondReaches : Reaches right (constantRates rates) second)
    (same : (published left first.shared).Perm
      (published right second.shared))
    (functional : Functional (published right second.shared))
    (final : Final right rates second.shared) {row : StoredTransaction}
    (member : row ∈ first.shared.db.table.map StoredTransaction.undated) :
    row ∈ second.shared.db.table.map StoredTransaction.undated := by
  rcases List.mem_map.mp member with ⟨dated, stored, rfl⟩
  rcases storable_of_stored firstReaches stored with
    ⟨event, listed, rowFor, fits⟩
  have ledger := ledger_of_final rightUnbounded secondReaches final
    functional
  rcases (ledger.2 event (same.subset listed)).mp fits with
    ⟨other, otherStored, otherFor⟩
  exact List.mem_map.mpr ⟨other, otherStored, otherFor.undated_eq rowFor⟩

/-- Two final runs over the same events have the same ledger. -/
theorem sameLedger_of_final
    (leftUnbounded : left.settings.streamMaxlen = none)
    (rightUnbounded : right.settings.streamMaxlen = none)
    (firstReaches : Reaches left (constantRates rates) first)
    (secondReaches : Reaches right (constantRates rates) second)
    (same : (published left first.shared).Perm
      (published right second.shared))
    (functional : Functional (published left first.shared))
    (firstFinal : Final left rates first.shared)
    (secondFinal : Final right rates second.shared) :
    SameLedger first.shared.db.table second.shared.db.table := by
  have firstUnique := (reaches_safe_of_any firstReaches).db.unique
  have secondUnique := (reaches_safe_of_any secondReaches).db.unique
  apply sameLedger_of_perm firstUnique
  rw [List.perm_ext_iff_of_nodup]
  · intro row
    constructor
    · exact undated_of_final rightUnbounded firstReaches secondReaches same
        (functional.perm same) secondFinal
    · exact undated_of_final leftUnbounded secondReaches firstReaches
        same.symm functional firstFinal
  · rw [← map_undated_ids] at firstUnique
    exact firstUnique.of_map
  · rw [← map_undated_ids] at secondUnique
    exact secondUnique.of_map

end Two

/-! ## Completing two runs -/

/-- The run can be resumed: its stream is neither trimmed nor undecodable, its
settings let a worker go on, and nothing was dead-lettered that could have been
stored. -/
structure Resumable (world : World) (rates : Rates) (config : AppConfig) :
    Prop where
  unbounded : world.settings.streamMaxlen = none
  batch : 1 ≤ world.settings.batchSize
  nonnegative : 0 ≤ world.settings.minIdleMs
  reaches : Reaches world (constantRates rates) config
  legible : Legible config.shared
  letters : ∀ letter ∈ config.shared.redis.deadLetters,
    Hopeless world rates config.shared letter.origin

section Converge

variable {rates : Rates}

theorem published_of_stream_eq {world : World} {state later : State}
    (same : later.redis.stream = state.redis.stream) :
    published world later = published world state := by
  simp only [published, State.entryFields, same]

theorem Resumable.exists_final {world : World}
    {answer : String → HttpResponse} {permit : AppPermit} {config : AppConfig}
    (serving : Serving rates answer permit)
    (resumable : Resumable world rates config) :
    ∃ after, (system world).Reachable permit config after ∧
      Reaches world (constantRates rates) after ∧
      Final world rates after.shared ∧
      published world after.shared = published world config.shared := by
  have deserving : Deserving world rates config.shared :=
    ⟨cacheFollows_of_reaches resumable.reaches, resumable.letters⟩
  rcases exists_recovery serving endures_deserving deserving resumable.batch
      resumable.nonnegative resumable.reaches resumable.legible with
    ⟨after, recovery, kept, complete, stream⟩
  exact ⟨after, recovery,
    reaches_of_recovery serving resumable.reaches recovery,
    ⟨complete, kept.letters⟩, published_of_stream_eq stream⟩

/-- Two resumable runs over the same events, with any other settings, workers,
failures and crashes, and stopped anywhere, can be completed to the same
ledger.  That ledger holds a row for exactly the events that can be stored. -/
theorem all_runs_converge {left right : World} {first second : AppConfig}
    (firstResumable : Resumable left rates first)
    (secondResumable : Resumable right rates second)
    (same : (published left first.shared).Perm
      (published right second.shared))
    (functional : Functional (published left first.shared)) :
    ∃ firstAfter secondAfter,
      (system left).Reachable (recovering rates) first firstAfter ∧
      (system right).Reachable (recovering rates) second secondAfter ∧
      SameLedger firstAfter.shared.db.table secondAfter.shared.db.table ∧
      ∀ event ∈ published left first.shared,
        storable rates event = true ↔
          ∃ row ∈ firstAfter.shared.db.table, RowFor rates event row := by
  rcases firstResumable.exists_final (serving_recovering rates) with
    ⟨firstAfter, firstRecovery, firstReaches, firstFinal, firstEvents⟩
  rcases secondResumable.exists_final (serving_recovering rates) with
    ⟨secondAfter, secondRecovery, secondReaches, secondFinal,
      secondEvents⟩
  rw [← firstEvents] at functional ⊢
  rw [← firstEvents, ← secondEvents] at same
  refine ⟨firstAfter, secondAfter, firstRecovery, secondRecovery,
    sameLedger_of_final firstResumable.unbounded secondResumable.unbounded
      firstReaches secondReaches same functional firstFinal
      secondFinal, ?_⟩
  exact (ledger_of_final firstResumable.unbounded firstReaches
    firstFinal functional).2

end Converge

/-! ## A run that has read and one that has not -/

/-- Only the coffee is published, nothing is dead-lettered, and the stream can
be decoded. -/
def showsCoffeeOnly (settings : Settings) (config : AppConfig) : Bool :=
  (List.range config.shared.redis.stream.entries.length).all
      (fun entry => (config.shared.entryFields entry).isSome) &&
    config.shared.redis.deadLetters.isEmpty &&
    decide (published (coffeeWorld settings) config.shared =
      [coffeeEvent.toTransactionEventIn])

theorem resumable_of_shows {settings : Settings} {rates : Rates}
    {config : AppConfig}
    (unbounded : settings.streamMaxlen = none)
    (batch : 1 ≤ settings.batchSize) (nonnegative : 0 ≤ settings.minIdleMs)
    (reaches : Reaches (coffeeWorld settings) (constantRates rates) config)
    (shown : showsCoffeeOnly settings config = true) :
    Resumable (coffeeWorld settings) rates config ∧
      published (coffeeWorld settings) config.shared =
        [coffeeEvent.toTransactionEventIn] := by
  simp only [showsCoffeeOnly, Bool.and_eq_true, decide_eq_true_eq] at shown
  rcases shown with ⟨⟨legible, none_⟩, events⟩
  refine ⟨⟨unbounded, batch, nonnegative, reaches, ?_, ?_⟩, events⟩
  · intro entry within
    exact List.all_eq_true.mp legible entry (List.mem_range.mpr within)
  · intro letter member
    rw [List.isEmpty_iff.mp none_] at member
    cases member

theorem all_runs_converge_coffee :
    ∃ first second : AppConfig, first.shared.Pending 0 ∧
      second.shared.redis.group = none ∧
        ∃ firstAfter secondAfter : AppConfig,
          SameLedger firstAfter.shared.db.table secondAfter.shared.db.table ∧
            ∃ row ∈ firstAfter.shared.db.table, row.id = "coffee" := by
  have read : ((system (coffeeWorld unbounded)).run euroGuard start
      (post 0 coffee {} ++ readAndDie 0)).any (fun config =>
        showsCoffeeOnly unbounded config && showsPending 0 config) = true := by
    decide +kernel
  have posted : ((system (coffeeWorld frugal)).run euroGuard start
      (post 0 coffee {})).any (fun config =>
        showsCoffeeOnly frugal config &&
          decide (config.shared.redis.group.isNone = true)) = true := by
    decide +kernel
  have fits : storable euroRates coffeeEvent.toTransactionEventIn = true := by
    decide +kernel
  rcases reaches_of_run respects_euroGuard read with
    ⟨first, firstReaches, shown⟩
  rcases reaches_of_run respects_euroGuard posted with
    ⟨second, secondReaches, shownToo⟩
  rw [Bool.and_eq_true] at shown shownToo
  rcases resumable_of_shows rfl (by decide) (by decide) firstReaches shown.1
    with ⟨firstResumable, firstEvents⟩
  rcases resumable_of_shows rfl (by decide) (by decide) secondReaches
    shownToo.1 with ⟨secondResumable, secondEvents⟩
  have functional :
      Functional (published (coffeeWorld unbounded) first.shared) := by
    intro event member other otherMember _
    rw [firstEvents, List.mem_singleton] at member otherMember
    rw [member, otherMember]
  rcases all_runs_converge firstResumable secondResumable
      (by rw [firstEvents, secondEvents]) functional with
    ⟨firstAfter, secondAfter, _, _, ledgers, stored⟩
  have listed : coffeeEvent.toTransactionEventIn ∈
      published (coffeeWorld unbounded) first.shared := by
    rw [firstEvents]
    exact List.mem_singleton_self _
  rcases (stored _ listed).mp fits with ⟨row, member, rowFor⟩
  exact ⟨first, second, pending_of_shows shown.2,
    Option.isNone_iff_eq_none.mp (of_decide_eq_true shownToo.2), firstAfter,
    secondAfter, ledgers, row, member, rowFor.id⟩

end TxnEvents
