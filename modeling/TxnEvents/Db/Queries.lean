import Mathlib.Algebra.BigOperators.Group.List.Basic
import Mathlib.Data.List.Sort
import TxnEvents.Db.Models

/-!
# Reading the table

What the statements of the repository's read methods answer on the rows they
see: the summary of a user, and one page of a user's transactions with the
number of rows it was cut from.
-/

namespace TxnEvents

open Arith

/-- The order of the `id` column. -/
structure Collation where
  le : String → String → Bool
  total : ∀ left right, le left right = true ∨ le right left = true
  trans : ∀ first second third,
    le first second = true → le second third = true → le first third = true
  antisymm : ∀ left right,
    le left right = true → le right left = true → left = right

/-- Order by code points. -/
def Collation.codePoints : Collation where
  le left right := decide (left ≤ right)
  total := by
    intro left right
    simpa using String.le_total left right
  trans := by
    intro first second third early late
    simp only [decide_eq_true_eq] at early late ⊢
    exact String.le_trans early late
  antisymm := by
    intro left right forth back
    simp only [decide_eq_true_eq] at forth back
    exact String.le_antisymm forth back

abbrev Table : Type := List StoredTransaction

/-- `SELECT COALESCE(SUM(amount_usd), 0), COUNT(*) WHERE user_id = ...`. -/
def summaryOf (table : Table) (userId : String) : Numeric 4 × Nat :=
  let rows := table.filter fun row => row.userId = userId
  ((rows.map StoredTransaction.amountUsd).foldr (· + ·) 0, rows.length)

/-- The bounds on `timestamp`, as the driver sends them. -/
structure Window where
  start : Option Int
  stop : Option Int

def Window.Contains (window : Window) (timestamp : Int) : Prop :=
  (∀ start, window.start = some start → start ≤ timestamp) ∧
    ∀ stop, window.stop = some stop → timestamp < stop

instance (window : Window) (timestamp : Int) :
    Decidable (window.Contains timestamp) :=
  inferInstanceAs (Decidable (
    (∀ start, window.start = some start → start ≤ timestamp) ∧
      ∀ stop, window.stop = some stop → timestamp < stop))

/-- The rows of a user inside a window. -/
def matching (table : Table) (userId : String) (window : Window) : Table :=
  table.filter fun row =>
    row.userId = userId ∧ window.Contains row.timestamp

/-- `ORDER BY timestamp DESC, id DESC`. -/
def NoLaterThan (collation : Collation) (left right : StoredTransaction) :
    Prop :=
  right.timestamp < left.timestamp ∨
    right.timestamp = left.timestamp ∧ collation.le right.id left.id = true

instance (collation : Collation) (left right : StoredTransaction) :
    Decidable (NoLaterThan collation left right) :=
  inferInstanceAs (Decidable (_ ∨ _ ∧ _))

/-- The matching rows, newest first. -/
def newestFirst (collation : Collation) (table : Table) (userId : String)
    (window : Window) : Table :=
  (matching table userId window).insertionSort (NoLaterThan collation)

/-- One page of rows. -/
def pageRows (collation : Collation) (table : Table) (userId : String)
    (window : Window) (limit offset : Nat) : Table :=
  ((newestFirst collation table userId window).drop offset).take limit

/-- `SELECT COUNT(*)` with the same conditions. -/
def pageTotal (table : Table) (userId : String) (window : Window) : Nat :=
  (matching table userId window).length

theorem mem_matching {table : Table} {userId : String} {window : Window}
    {row : StoredTransaction} :
    row ∈ matching table userId window ↔
      row ∈ table ∧ row.userId = userId ∧ window.Contains row.timestamp := by
  simp [matching]

theorem mem_newestFirst {collation : Collation} {table : Table}
    {userId : String} {window : Window} {row : StoredTransaction} :
    row ∈ newestFirst collation table userId window ↔
      row ∈ table ∧ row.userId = userId ∧ window.Contains row.timestamp := by
  rw [newestFirst, List.mem_insertionSort, mem_matching]

end TxnEvents
