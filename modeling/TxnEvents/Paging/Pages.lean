import Mathlib.Data.List.Sort

/-!
# Reading an ordered listing page by page

Rows in a strict order, cut into pages by limit and offset.  Read from a
listing that stays, the pages tile it.  A listing that grows between the reads
moves rows to later pages only, so a client that goes on until it has seen as
many rows as the listing counts misses no row it set out with.
-/

namespace Paging

variable {Row : Type}

/-- At most `limit` rows from `offset` on. -/
def page (rows : List Row) (limit offset : Nat) : List Row :=
  (rows.drop offset).take limit

section Page

variable {rows : List Row} {limit offset : Nat}

theorem page_sublist (rows : List Row) (limit offset : Nat) :
    (page rows limit offset).Sublist rows :=
  (List.take_sublist limit _).trans (List.drop_sublist offset rows)

theorem length_page (rows : List Row) (limit offset : Nat) :
    (page rows limit offset).length = min limit (rows.length - offset) := by
  rw [page, List.length_take, List.length_drop]

/-- A page with a row on it ends within the listing. -/
theorem page_ends_within (notEmpty : page rows limit offset ≠ []) :
    offset + (page rows limit offset).length ≤ rows.length := by
  have positive := List.length_pos_of_ne_nil notEmpty
  rw [length_page] at positive ⊢
  omega

theorem mem_page_of_position [DecidableEq Row] {row : Row}
    (member : row ∈ rows) (reached : offset ≤ rows.idxOf row)
    (within : rows.idxOf row < offset + limit) :
    row ∈ page rows limit offset := by
  have inside : rows.idxOf row < rows.length :=
    List.idxOf_lt_length_of_mem member
  have kept : rows.idxOf row - offset < (page rows limit offset).length := by
    rw [length_page]
    omega
  have here : (page rows limit offset)[rows.idxOf row - offset] = row := by
    simp only [page, List.getElem_take, List.getElem_drop]
    have position : offset + (rows.idxOf row - offset) = rows.idxOf row := by
      omega
    simp only [position]
    exact List.getElem_idxOf inside
  rw [← here]
  exact List.getElem_mem kept

/-- The first pages, one after the other, are the first rows. -/
theorem flatten_pages (rows : List Row) (limit count : Nat) :
    ((List.range count).map fun number =>
      page rows limit (number * limit)).flatten = rows.take (count * limit) := by
  induction count with
  | zero => simp
  | succ count inductionHypothesis =>
      rw [List.range_succ, List.map_append, List.flatten_append,
        inductionHypothesis, List.map_singleton, List.flatten_singleton, page,
        Nat.succ_mul, List.take_add]

theorem flatten_pages_of_enough {count : Nat}
    (enough : rows.length ≤ count * limit) :
    ((List.range count).map fun number =>
      page rows limit (number * limit)).flatten = rows := by
  rw [flatten_pages, List.take_of_length_le enough]

end Page

/-! ## Growing listings -/

section Order

variable {before : Row → Row → Prop} [Std.Asymm before]

/-- A strictly ordered listing is determined by its rows. -/
theorem eq_of_perm {left right : List Row} (leftOrdered : left.Pairwise before)
    (rightOrdered : right.Pairwise before) (same : left.Perm right) :
    left = right :=
  List.Perm.eq_of_pairwise'
    leftOrdered rightOrdered same

/-- More rows in the same order: the old listing is a part of the new one. -/
theorem sublist_of_subset {earlier later : List Row}
    (earlierOrdered : earlier.Pairwise before)
    (laterOrdered : later.Pairwise before) (grown : earlier ⊆ later) :
    earlier.Sublist later := by
  have part : List.Subperm earlier later :=
    List.subperm_of_subset earlierOrdered.nodup grown
  exact List.sublist_of_subperm_of_pairwise part earlierOrdered laterOrdered

end Order

/-- Rows move to later positions only. -/
theorem idxOf_le_of_sublist [DecidableEq Row] {earlier later : List Row}
    {row : Row} (grown : earlier.Sublist later) (distinct : later.Nodup)
    (member : row ∈ earlier) : earlier.idxOf row ≤ later.idxOf row := by
  induction grown with
  | slnil => cases member
  | @cons earlier rest newest grown inductionHypothesis =>
      obtain ⟨absent, restDistinct⟩ := List.nodup_cons.mp distinct
      have different : newest ≠ row := by
        intro same
        rw [same] at absent
        exact absent (grown.subset member)
      have bound := inductionHypothesis restDistinct member
      rw [List.idxOf_cons_ne rest different]
      omega
  | @cons_cons earlier rest first grown inductionHypothesis =>
      obtain ⟨_, restDistinct⟩ := List.nodup_cons.mp distinct
      by_cases same : first = row
      · rw [same, List.idxOf_cons_self, List.idxOf_cons_self]
      · have remaining : row ∈ earlier := by
          cases List.mem_cons.mp member with
          | inl equal => exact absurd equal.symm same
          | inr inside => exact inside
        have bound := inductionHypothesis restDistinct remaining
        rw [List.idxOf_cons_ne earlier same, List.idxOf_cons_ne rest same]
        omega

/-! ## A client -/

/-- When a client stops: the page is empty, or it ends where the count
does. -/
def Stops (offset : Nat) (received : List Row) (total : Nat) : Prop :=
  received = [] ∨ total ≤ offset + received.length

instance (offset : Nat) (received : List Row) (total : Nat) :
    Decidable (Stops offset received total) :=
  inferInstanceAs (Decidable (_ ∨ _))

/-- The pages that a client receives from `offset` on, each from a listing
that has grown since `earlier` and is counted after it was read. -/
inductive Walk (limit : Nat) : Nat → List Row → List (List Row) → Prop
  | last {offset total : Nat} {earlier rows : List Row}
      (grown : earlier.Sublist rows) (distinct : rows.Nodup)
      (counted : rows.length ≤ total)
      (stops : Stops offset (page rows limit offset) total) :
      Walk limit offset earlier [page rows limit offset]
  | more {offset total : Nat} {earlier rows : List Row}
      {received : List (List Row)}
      (grown : earlier.Sublist rows) (distinct : rows.Nodup)
      (counted : rows.length ≤ total)
      (goesOn : ¬ Stops offset (page rows limit offset) total)
      (rest : Walk limit (offset + limit) rows received) :
      Walk limit offset earlier (page rows limit offset :: received)

/-- A page that does not hold the row leaves it to the pages after. -/
theorem passed_of_not_mem_page [DecidableEq Row] {rows : List Row}
    {limit offset : Nat} {row : Row} (member : row ∈ rows)
    (reached : offset ≤ rows.idxOf row)
    (missed : row ∉ page rows limit offset) :
    offset + limit ≤ rows.idxOf row := by
  by_contra before
  apply missed
  apply mem_page_of_position member reached
  omega

/-- The client receives every row that the listing had before its first
request. -/
theorem Walk.finds [DecidableEq Row] {limit offset : Nat} {earlier : List Row}
    {received : List (List Row)} (positive : 1 ≤ limit)
    (walk : Walk limit offset earlier received) {row : Row}
    (member : row ∈ earlier) (reached : offset ≤ earlier.idxOf row) :
    ∃ rows ∈ received, row ∈ rows := by
  induction walk with
  | @last offset total earlier rows grown distinct counted stops =>
      refine ⟨_, List.mem_singleton_self _, ?_⟩
      by_contra missed
      have later := idxOf_le_of_sublist grown distinct member
      have passed := passed_of_not_mem_page (grown.subset member)
        (Nat.le_trans reached later) missed
      have inside := List.idxOf_lt_length_of_mem (grown.subset member)
      have full := length_page rows limit offset
      cases stops with
      | inl empty =>
          rw [empty, List.length_nil] at full
          omega
      | inr atEnd => omega
  | @more offset total earlier rows received grown distinct counted goesOn rest
      inductionHypothesis =>
      by_cases here : row ∈ page rows limit offset
      · exact ⟨_, List.mem_cons_self, here⟩
      · have later := idxOf_le_of_sublist grown distinct member
        have passed := passed_of_not_mem_page (grown.subset member)
          (Nat.le_trans reached later) here
        obtain ⟨found, among, holds⟩ :=
          inductionHypothesis (grown.subset member) passed
        exact ⟨found, List.mem_cons_of_mem _ among, holds⟩

end Paging
