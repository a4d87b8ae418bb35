import Mathlib.Algebra.BigOperators.Group.Finset.Basic
import TxnEvents.Delivery.NoLoss

/-!
# Exactly one effect on the ledger

Whatever is delivered, retried and crashed: an id has at most one row, the row
comes from one delivery, it stays as it is, and the summary of a user adds up
the rows with the user's ids.
-/

namespace TxnEvents

open Effects Arith Python

/-- The rows of a user. -/
def userRows (table : Table) (userId : String) : Table :=
  table.filter fun row => row.userId = userId

/-- The ids that a user has in the table, each counted once. -/
def userIds (table : Table) (userId : String) : Finset String :=
  ((userRows table userId).map StoredTransaction.id).toFinset

section Summary

variable {table : Table} {userId : String}

theorem userRows_ids_nodup
    (unique : (table.map StoredTransaction.id).Nodup) :
    ((userRows table userId).map StoredTransaction.id).Nodup :=
  unique.sublist (List.filter_sublist.map _)

theorem summaryOf_count (unique : (table.map StoredTransaction.id).Nodup) :
    (summaryOf table userId).2 = (userIds table userId).card := by
  rw [userIds, List.toFinset_card_of_nodup (userRows_ids_nodup unique),
    List.length_map]
  rfl

theorem summaryOf_total (unique : (table.map StoredTransaction.id).Nodup) :
    (summaryOf table userId).1 =
      ∑ row ∈ (userRows table userId).toFinset, row.amountUsd := by
  have nodup : (userRows table userId).Nodup :=
    (userRows_ids_nodup unique).of_map
  rw [List.sum_toFinset _ nodup]
  rfl

theorem summaryOf_count_le_of_prefix {longer : Table}
    (begins : table <+: longer) :
    (summaryOf table userId).2 ≤ (summaryOf longer userId).2 :=
  (begins.sublist.filter _).length_le

end Summary

/-- What holds of the ledger at any time. -/
structure LedgerSound (world : World) (state : State) : Prop where
  /-- At most one row for an id. -/
  unique : (state.db.table.map StoredTransaction.id).Nodup
  /-- A row is built from one delivery and one answered rate. -/
  sourced : ∀ row ∈ state.db.table, ∃ source,
    StoredFrom world state source row ∧ row.id = source.event.id
  /-- The insert of an id returns `True` at most once. -/
  insertedOnce : ∀ id, insertedReturns state.history id ≤ 1
  /-- The summary of a user adds up the user's distinct ids. -/
  summary : ∀ userId, summaryOf state.db.table userId =
    (∑ row ∈ (userRows state.db.table userId).toFinset, row.amountUsd,
      (userIds state.db.table userId).card)
  /-- An answered summary is that of a table the run went through. -/
  answered : ∀ task userId response,
    .noted task (.answered (.summary userId) (.ok (.summary response))) ∈
      state.history →
        ∃ table, Snapshot table state ∧ summaryOn table userId = .ok response

theorem insertedReturns_le_one {world : World} {state : State}
    (safe : DbSafe world state) (id : String) :
    insertedReturns state.history id ≤ 1 := by
  have bound := safe.returns id
  have once := List.nodup_iff_count_le_one.mp safe.unique id
  omega

theorem StoredFrom.id {world : World} {state : State} {source : Source}
    {row : StoredTransaction} (from_ : StoredFrom world state source row) :
    row.id = source.event.id := by
  obtain ⟨_, process, accepted⟩ := from_
  exact (ProcessedTransaction.storedAs_of_toColumns accepted).id

theorem ledgerSound_of_safe {spare : Prop} {world : World} {state : State}
    (safe : Safe spare world state) : LedgerSound world state where
  unique := safe.db.unique
  sourced := by
    intro row member
    obtain ⟨source, from_⟩ := safe.db.sourced row member
    exact ⟨source, from_, from_.id⟩
  insertedOnce := insertedReturns_le_one safe.db
  summary := by
    intro userId
    exact Prod.ext (summaryOf_total safe.db.unique)
      (summaryOf_count safe.db.unique)
  answered := by
    intro task userId response member
    exact safe.promises task _ _ member

/-- In every state of every run the ledger is sound, and from there on its
rows stay as they are and no count goes down. -/
theorem ledger_effect_exactly_once {world : World} {permit : AppPermit}
    {first second : AppConfig} (reaches : Reaches world permit first)
    (later : (system world).Reachable permit first second) :
    LedgerSound world first.shared ∧ LedgerSound world second.shared ∧
      first.shared.db.table <+: second.shared.db.table ∧
        ∀ userId, (summaryOf first.shared.db.table userId).2 ≤
          (summaryOf second.shared.db.table userId).2 := by
  have kept := (reachable_grows later).table
  refine ⟨?_, ?_, kept, ?_⟩
  · exact ledgerSound_of_safe (reaches_safe_of_any reaches)
  · exact ledgerSound_of_safe (reaches_safe_of_any (reaches.trans later))
  · intro userId
    exact summaryOf_count_le_of_prefix kept

/-- The coffee is published twice, and stored once. -/
def storeTwin : List AppAction :=
  post 0 coffee {} ++ post 1 coffee {} ++ launch 0 ++
    steps (.consume 0) 13 (answering (.finite false 11 (-1)))

/-- The second delivery finds the row. -/
def meetTwin : List AppAction :=
  steps (.consume 0) 12 (answering (.finite false 11 (-1)))

/-- Whether an insert of the coffee has found its row. -/
def showsDuplicate (config : AppConfig) : Bool :=
  config.shared.history.contains
    (.noted (.consume 0) (.processEnded 1 (.ok .duplicate)))

theorem ledger_effect_exactly_once_coffee :
    ∃ first second : AppConfig,
      Reaches (coffeeWorld {}) Permit.any first ∧
        first.shared.db.table.map StoredTransaction.id = ["coffee"] ∧
          insertedReturns second.shared.history "coffee" = 1 ∧
            showsDuplicate second = true ∧
              LedgerSound (coffeeWorld {}) second.shared ∧
                first.shared.db.table <+: second.shared.db.table := by
  have taken : ((system (coffeeWorld {})).run Guard.any start
      storeTwin).any (fun first =>
        decide (first.shared.db.table.map StoredTransaction.id = ["coffee"]) &&
          ((system (coffeeWorld {})).run Guard.any first meetTwin).any
            fun second =>
              decide (insertedReturns second.shared.history "coffee" = 1) &&
                showsDuplicate second) = true := by decide +kernel
  obtain ⟨first, reaches, shown⟩ := reaches_of_run respects_any taken
  rw [Bool.and_eq_true, decide_eq_true_eq] at shown
  obtain ⟨second, ran, facts⟩ := (Option.any_eq_true _ _).mp shown.2
  rw [Bool.and_eq_true, decide_eq_true_eq] at facts
  have sound := ledger_effect_exactly_once reaches
    (System.Reachable.of_run respects_any ran)
  exact ⟨first, second, reaches, shown.1, facts.1, facts.2, sound.2.1,
    sound.2.2.1⟩

end TxnEvents
