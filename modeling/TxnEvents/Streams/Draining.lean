import Mathlib.Algebra.Order.BigOperators.Group.List
import Mathlib.Algebra.Order.Group.Nat
import TxnEvents.Streams.ConsumerGroup

/-!
# Draining a group

Reads that are repeated come to the end of the log, and claims that are
repeated, when each is followed by the acknowledgement of what it handed out,
come to the end of the pending list.
-/

namespace Streams

namespace Group

variable {Fields : Type} {group left : Group} {log : Log Fields}
  {now minIdle count : Nat}

/-! ## Reading on -/

/-- How many entries are still to be read. -/
def unreadCount (group : Group) (log : Log Fields) : Nat :=
  log.entries.length - group.firstUnread log

theorem unreadCount_eq_of_lastDelivered_eq
    (same : left.lastDelivered = group.lastDelivered) :
    left.unreadCount log = group.unreadCount log := by
  rw [unreadCount, firstUnread, same]
  rfl

theorem unreadCount_read_lt (positive : 1 ≤ count)
    (more : 0 < group.unreadCount log) :
    (group.read log (some count) now).unreadCount log <
      group.unreadCount log := by
  have first : group.firstUnread log = max group.lastDelivered log.trimmed :=
    rfl
  have length : (group.unread log (some count)).length =
      min (log.entries.length - group.firstUnread log) count := by
    rw [unread, List.length_range']
    rfl
  have some_ : group.unread log (some count) ≠ [] := by
    intro empty
    rw [empty, List.length_nil] at length
    unfold unreadCount at more
    omega
  have moved : (group.read log (some count) now).lastDelivered =
      group.firstUnread log + (group.unread log (some count)).length := by
    simp only [read, if_neg some_]
  have next : (group.read log (some count) now).firstUnread log =
      max (group.firstUnread log + (group.unread log (some count)).length)
        log.trimmed := by
    rw [firstUnread, moved]
  unfold unreadCount at more ⊢
  rw [next]
  omega

/-- At the end of the log nothing that is there is left to read. -/
theorem lt_lastDelivered_of_unreadCount {id : Nat}
    (none_ : group.unreadCount log = 0) (live : log.Live id) :
    id < group.lastDelivered := by
  have first : group.firstUnread log = max group.lastDelivered log.trimmed :=
    rfl
  rcases live with ⟨present, within⟩
  unfold unreadCount at none_
  omega

/-! ## Claiming on -/

/-- Every pending entry may be claimed. -/
def AllIdle (group : Group) (now minIdle : Nat) : Prop :=
  ∀ entry ∈ group.pending, entry.deliveredAt + minIdle ≤ now

/-- After enough time every pending entry may be claimed. -/
theorem exists_allIdle (group : Group) (now minIdle : Nat) :
    ∃ passed, group.AllIdle (now + passed) minIdle := by
  refine ⟨(group.pending.map PendingEntry.deliveredAt).sum + minIdle, ?_⟩
  intro entry member
  have early := List.le_sum_of_mem
    (List.mem_map_of_mem (f := PendingEntry.deliveredAt) member)
  omega

/-- The first of the idle entries is handed out, or found to be gone. -/
theorem claimScan_head {entry : PendingEntry} {rest : List PendingEntry}
    (pending : group.pending = entry :: rest) (positive : 1 ≤ count)
    (idle : group.AllIdle now minIdle) :
    entry.id ∈ (group.claimScan log now minIdle 0 count).claimed ∨
      entry.id ∈ (group.claimScan log now minIdle 0 count).deleted := by
  have here : entry ∈ group.pending := by
    rw [pending]
    exact List.mem_cons_self
  have ready := idle entry here
  rcases Nat.exists_eq_add_of_le' positive with ⟨more, rfl⟩
  have attempts : 10 * (more + 1) = (10 * more + 9) + 1 := by omega
  have notEarly : ¬ entry.id < 0 := Nat.not_lt_zero _
  rw [claimScan, pending, attempts, scan, if_neg notEarly]
  by_cases present : log.Live entry.id
  · left
    simp [present, ready]
  · right
    simp [present]

theorem ids_claim_sublist :
    ((group.claim log now minIdle 0 count).pending.map PendingEntry.id).Sublist
      (group.pending.map PendingEntry.id) := by
  change ((group.claimScan log now minIdle 0 count).pending.map
    PendingEntry.id).Sublist _
  rw [claimScan, scan_pending _ _ group.ordered]
  generalize scan _ _ _ _ _ _ _ = found
  have kept : ∀ entries : List PendingEntry,
      ((entries.filterMap (found.outcome now)).map PendingEntry.id).Sublist
        (entries.map PendingEntry.id) := by
    intro entries
    induction entries with
    | nil => exact List.Sublist.refl _
    | cons entry rest inductionHypothesis =>
        cases outcome : found.outcome now entry with
        | none =>
            rw [List.filterMap_cons_none outcome]
            exact inductionHypothesis.cons _
        | some after =>
            rw [List.filterMap_cons_some outcome, List.map_cons, List.map_cons,
              Scan.outcome_id outcome]
            exact inductionHypothesis.cons_cons _
  exact kept group.pending

/-- What is left of a group when all that one claim hands out has been
acknowledged. -/
structure Cleared (group left : Group) (log : Log Fields)
    (now minIdle count : Nat) : Prop where
  pending : left.pending.Sublist
    (group.claim log now minIdle 0 count).pending
  settled : ∀ id,
    left.Pending id ↔ (group.claim log now minIdle 0 count).Pending id ∧
      id ∉ (group.claimScan log now minIdle 0 count).claimed

namespace Cleared

theorem allIdle (cleared : Cleared group left log now minIdle count)
    (idle : group.AllIdle now minIdle) : left.AllIdle now minIdle := by
  intro entry member
  have unclaimed := ((cleared.settled entry.id).mp ⟨entry, member, rfl⟩).2
  rcases mem_claim_pending (cleared.pending.subset member) with
    ⟨old, oldMember, ⟨claimed, _⟩ | ⟨_, same⟩⟩
  · exact absurd claimed unclaimed
  · rw [same]
    exact idle old oldMember

theorem length_lt (cleared : Cleared group left log now minIdle count)
    (positive : 1 ≤ count) (idle : group.AllIdle now minIdle)
    (more : 0 < group.pending.length) :
    left.pending.length < group.pending.length := by
  rcases List.exists_cons_of_length_pos more with ⟨first, rest, pending⟩
  have fewer : (left.pending.map PendingEntry.id).Sublist
      (group.pending.map PendingEntry.id) :=
    (cleared.pending.map PendingEntry.id).trans ids_claim_sublist
  have gone : first.id ∉ left.pending.map PendingEntry.id := by
    intro member
    rcases List.mem_map.mp member with ⟨entry, here, same⟩
    rcases (cleared.settled first.id).mp ⟨entry, here, same⟩ with
      ⟨waiting, unclaimed⟩
    rcases claimScan_head pending positive idle with claimed | deleted
    · exact unclaimed claimed
    · exact ((pending_claim_iff first.id).mp waiting).2 deleted
  have present : first.id ∈ group.pending.map PendingEntry.id := by
    rw [pending]
    exact List.mem_cons_self
  have shorter := fewer.length_le
  rw [List.length_map, List.length_map] at shorter
  refine Nat.lt_of_le_of_ne shorter ?_
  intro same
  apply gone
  rw [fewer.eq_of_length (by rw [List.length_map, List.length_map, same])]
  exact present

end Cleared

end Group

end Streams
