import Mathlib.Algebra.BigOperators.Group.List.Basic
import TxnEvents.Api.Routes
import TxnEvents.Paging.Pages

/-!
# The listing of a user

The rows that the repository lists are strictly ordered, newest first, as long
as ids are unique.  So a listing is determined by the rows of the table, and a
table that grows keeps the listed rows in their order.
-/

namespace TxnEvents

open Effects Arith

/-- `left` is listed before `right`. -/
def Newer (collation : Collation) (left right : StoredTransaction) : Prop :=
  right.timestamp < left.timestamp ∨
    right.timestamp = left.timestamp ∧
      collation.le right.id left.id = true ∧ right.id ≠ left.id

section Order

variable {collation : Collation} {first second third : StoredTransaction}

theorem noLaterThan_total (collation : Collation)
    (left right : StoredTransaction) :
    NoLaterThan collation left right ∨ NoLaterThan collation right left := by
  rcases Int.lt_trichotomy left.timestamp right.timestamp with
    earlier | same | later
  · exact Or.inr (Or.inl earlier)
  · cases collation.total left.id right.id with
    | inl ordered => exact Or.inr (Or.inr ⟨same, ordered⟩)
    | inr ordered => exact Or.inl (Or.inr ⟨same.symm, ordered⟩)
  · exact Or.inl (Or.inl later)

theorem noLaterThan_trans (early : NoLaterThan collation first second)
    (late : NoLaterThan collation second third) :
    NoLaterThan collation first third := by
  rcases early with below | ⟨same, ordered⟩
  · rcases late with further | ⟨equal, _⟩
    · exact Or.inl (Int.lt_trans further below)
    · exact Or.inl (equal ▸ below)
  · rcases late with further | ⟨equal, after⟩
    · exact Or.inl (same ▸ further)
    · exact Or.inr ⟨equal.trans same,
        collation.trans _ _ _ after ordered⟩

instance (collation : Collation) :
    Std.Total (NoLaterThan collation) :=
  ⟨noLaterThan_total collation⟩

instance (collation : Collation) :
    IsTrans StoredTransaction (NoLaterThan collation) :=
  ⟨fun _ _ _ => noLaterThan_trans⟩

theorem newer_of_noLaterThan (ordered : NoLaterThan collation first second)
    (different : first.id ≠ second.id) : Newer collation first second := by
  rcases ordered with below | ⟨same, byId⟩
  · exact Or.inl below
  · exact Or.inr ⟨same, byId, Ne.symm different⟩

instance (collation : Collation) : Std.Asymm (Newer collation) where
  asymm := by
    intro left right forth back
    rcases forth with below | ⟨same, byId, different⟩
    · rcases back with above | ⟨equal, _, _⟩
      · omega
      · omega
    · rcases back with above | ⟨_, byIdBack, _⟩
      · omega
      · exact different (collation.antisymm _ _ byId byIdBack)

end Order

/-! ## What is listed -/

section Listing

variable {collation : Collation} {table left right : Table}
  {userId : String} {window : Window}

theorem matching_sublist (table : Table) (userId : String)
    (window : Window) : (matching table userId window).Sublist table :=
  List.filter_sublist

theorem newestFirst_perm (collation : Collation) (table : Table)
    (userId : String) (window : Window) :
    (newestFirst collation table userId window).Perm
      (matching table userId window) :=
  List.perm_insertionSort _ _

theorem length_newestFirst :
    (newestFirst collation table userId window).length =
      pageTotal table userId window :=
  (newestFirst_perm collation table userId window).length_eq

theorem newestFirst_ids_nodup
    (unique : (table.map StoredTransaction.id).Nodup) :
    ((newestFirst collation table userId window).map
      StoredTransaction.id).Nodup := by
  have listed := newestFirst_perm collation table userId window
  rw [(listed.map StoredTransaction.id).nodup_iff]
  exact unique.sublist ((matching_sublist table userId window).map _)

theorem newestFirst_ordered
    (unique : (table.map StoredTransaction.id).Nodup) :
    (newestFirst collation table userId window).Pairwise (Newer collation) := by
  have sorted : (newestFirst collation table userId window).Pairwise
      (NoLaterThan collation) := List.pairwise_insertionSort _ _
  have distinct : (newestFirst collation table userId window).Pairwise
      fun first second => first.id ≠ second.id :=
    List.pairwise_map.mp (newestFirst_ids_nodup unique)
  exact sorted.imp₂ (fun _ _ ordered different =>
    newer_of_noLaterThan ordered different) distinct

/-- What is listed in strict order is the listing. -/
theorem newestFirst_eq_of_ordered {rows : List StoredTransaction}
    (unique : (table.map StoredTransaction.id).Nodup)
    (ordered : rows.Pairwise (Newer collation))
    (same : rows.Perm (matching table userId window)) :
    newestFirst collation table userId window = rows :=
  Paging.eq_of_perm (newestFirst_ordered unique) ordered
    ((newestFirst_perm collation table userId window).trans same.symm)

/-- The listing does not depend on the order of the table. -/
theorem newestFirst_eq_of_perm
    (unique : (left.map StoredTransaction.id).Nodup)
    (same : left.Perm right) :
    newestFirst collation left userId window =
      newestFirst collation right userId window := by
  have rightUnique : (right.map StoredTransaction.id).Nodup :=
    (same.map _).nodup_iff.mp unique
  apply newestFirst_eq_of_ordered unique (newestFirst_ordered rightUnique)
  exact (newestFirst_perm collation right userId window).trans
    (same.filter _).symm

/-- A listing keeps its rows in their order when the table grows. -/
theorem newestFirst_sublist
    (unique : (right.map StoredTransaction.id).Nodup)
    (grown : left.Sublist right) :
    (newestFirst collation left userId window).Sublist
      (newestFirst collation right userId window) := by
  have leftUnique : (left.map StoredTransaction.id).Nodup :=
    unique.sublist (grown.map _)
  apply Paging.sublist_of_subset (newestFirst_ordered leftUnique)
    (newestFirst_ordered unique)
  intro row member
  obtain ⟨inTable, matches_⟩ := mem_newestFirst.mp member
  exact mem_newestFirst.mpr ⟨grown.subset inTable, matches_⟩

theorem pageTotal_le_of_sublist (grown : left.Sublist right) :
    pageTotal left userId window ≤ pageTotal right userId window :=
  (grown.filter _).length_le

end Listing

end TxnEvents
