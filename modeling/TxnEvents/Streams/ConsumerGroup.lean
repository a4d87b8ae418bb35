import Mathlib.Data.List.Nodup
import TxnEvents.Streams.Log

/-!
# Consumer groups

A consumer group reads a log once and keeps a pending list: the entries it has
handed out that are not acknowledged yet, in id order, each with the number of
times it was delivered and the time of the last delivery.

`read` hands out entries nobody was given before, `claim` hands pending ones
out again, `ack` takes an entry off the list.  The invariants of the list are
fields of `Group`, so every operation proves them once.
-/

namespace Streams

structure PendingEntry where
  id : Nat
  timesDelivered : Nat
  deliveredAt : Nat
deriving DecidableEq, Repr

/-- The entry handed out once more at time `now`. -/
def PendingEntry.redelivered (entry : PendingEntry) (now : Nat) :
    PendingEntry where
  id := entry.id
  timesDelivered := entry.timesDelivered + 1
  deliveredAt := now

/-- A group: everything below `lastDelivered` has been handed out or passed
over, and the handed-out entries without an acknowledgement are pending. -/
structure Group where
  lastDelivered : Nat
  pending : List PendingEntry
  ordered :
    pending.Pairwise fun earlier later => earlier.id < later.id
  handedOut : ∀ entry ∈ pending, entry.id < lastDelivered

namespace Group

variable {Fields : Type}

/-- A group that starts at the beginning of the stream. -/
def fromStart : Group where
  lastDelivered := 0
  pending := []
  ordered := List.Pairwise.nil
  handedOut := by simp

/-- The entry is on the pending list. -/
def Pending (group : Group) (id : Nat) : Prop :=
  ∃ entry ∈ group.pending, entry.id = id

instance (group : Group) (id : Nat) : Decidable (group.Pending id) :=
  inferInstanceAs (Decidable (∃ entry ∈ group.pending, entry.id = id))

theorem Pending.lt_lastDelivered {group : Group} {id : Nat}
    (pending : group.Pending id) : id < group.lastDelivered := by
  obtain ⟨entry, member, rfl⟩ := pending
  exact group.handedOut entry member

theorem ids_nodup (group : Group) :
    (group.pending.map PendingEntry.id).Nodup := by
  rw [List.Nodup, List.pairwise_map]
  exact group.ordered.imp fun order => Nat.ne_of_lt order

/-! ## Reading new entries -/

/-- The first id a read may hand out: trimmed entries are passed over. -/
def firstUnread (group : Group) (log : Log Fields) : Nat :=
  max group.lastDelivered log.trimmed

/-- The ids a read hands out, at most `limit` of them. -/
def unread (group : Group) (log : Log Fields) (limit : Option Nat) :
    List Nat :=
  let available := log.entries.length - group.firstUnread log
  List.range' (group.firstUnread log)
    (limit.elim available (min available))

theorem mem_unread
    {group : Group} {log : Log Fields} {limit : Option Nat} {id : Nat}
    (member : id ∈ group.unread log limit) :
    group.lastDelivered ≤ id ∧ log.Live id := by
  have bound :
      limit.elim (log.entries.length - group.firstUnread log)
          (min (log.entries.length - group.firstUnread log)) ≤
        log.entries.length - group.firstUnread log := by
    cases limit with
    | none => exact Nat.le_refl _
    | some count => exact Nat.min_le_left _ _
  simp only [unread, List.mem_range'_1] at member
  have first : group.firstUnread log = max group.lastDelivered log.trimmed :=
    rfl
  refine ⟨by omega, ?_, ?_⟩
  · omega
  · omega

theorem unread_nodup
    (group : Group) (log : Log Fields) (limit : Option Nat) :
    (group.unread log limit).Nodup :=
  List.nodup_range'

/-- Hand out unread entries: each becomes pending with one delivery. -/
def read (group : Group) (log : Log Fields) (limit : Option Nat)
    (now : Nat) : Group where
  lastDelivered :=
    if group.unread log limit = [] then group.lastDelivered
    else group.firstUnread log + (group.unread log limit).length
  pending :=
    group.pending ++
      (group.unread log limit).map fun id => ⟨id, 1, now⟩
  ordered := by
    rw [List.pairwise_append, List.pairwise_map]
    refine ⟨group.ordered, ?_, ?_⟩
    · exact List.pairwise_lt_range'
    · intro earlier earlierMember later laterMember
      obtain ⟨id, member, rfl⟩ := List.mem_map.mp laterMember
      have old := group.handedOut earlier earlierMember
      have fresh := (mem_unread member).1
      exact Nat.lt_of_lt_of_le old fresh
  handedOut := by
    intro entry member
    split
    case isTrue none =>
      simp only [none, List.map_nil, List.append_nil] at member
      exact group.handedOut entry member
    case isFalse some =>
      have first : group.lastDelivered ≤ group.firstUnread log :=
        Nat.le_max_left _ _
      rcases List.mem_append.mp member with old | new
      · have bound := group.handedOut entry old
        omega
      · obtain ⟨id, fresh, rfl⟩ := List.mem_map.mp new
        simp only [unread, List.mem_range'_1] at fresh
        simp only [unread, List.length_range']
        omega

theorem mem_read_pending
    (group : Group) (log : Log Fields) (limit : Option Nat) (now : Nat)
    (entry : PendingEntry) :
    entry ∈ (group.read log limit now).pending ↔
      entry ∈ group.pending ∨
        ∃ id ∈ group.unread log limit, entry = ⟨id, 1, now⟩ := by
  simp only [read, List.mem_append, List.mem_map]
  constructor
  · rintro (old | ⟨id, member, rfl⟩)
    · exact Or.inl old
    · exact Or.inr ⟨id, member, rfl⟩
  · rintro (old | ⟨id, member, rfl⟩)
    · exact Or.inl old
    · exact Or.inr ⟨id, member, rfl⟩

theorem pending_read_iff
    (group : Group) (log : Log Fields) (limit : Option Nat) (now id : Nat) :
    (group.read log limit now).Pending id ↔
      group.Pending id ∨ id ∈ group.unread log limit := by
  constructor
  · rintro ⟨entry, member, rfl⟩
    rcases (mem_read_pending group log limit now entry).mp member with
      old | ⟨id, fresh, rfl⟩
    · exact Or.inl ⟨entry, old, rfl⟩
    · exact Or.inr fresh
  · rintro (⟨entry, member, rfl⟩ | fresh)
    · exact ⟨entry,
        (mem_read_pending group log limit now entry).mpr (Or.inl member), rfl⟩
    · exact ⟨⟨id, 1, now⟩,
        (mem_read_pending group log limit now _).mpr
          (Or.inr ⟨id, fresh, rfl⟩), rfl⟩

theorem lastDelivered_le_read
    (group : Group) (log : Log Fields) (limit : Option Nat) (now : Nat) :
    group.lastDelivered ≤ (group.read log limit now).lastDelivered := by
  simp only [read]
  split
  · exact Nat.le_refl _
  · have first : group.lastDelivered ≤ group.firstUnread log :=
      Nat.le_max_left _ _
    omega

/-- Below the new position an entry was handed out before, is handed out now,
or was trimmed away unread. -/
theorem lt_lastDelivered_read
    {group : Group} {log : Log Fields} {limit : Option Nat} {now id : Nat}
    (below : id < (group.read log limit now).lastDelivered) :
    id < group.lastDelivered ∨ id ∈ group.unread log limit ∨
      id < log.trimmed := by
  simp only [read] at below
  split at below
  · exact Or.inl below
  · have first : group.firstUnread log = max group.lastDelivered log.trimmed :=
      rfl
    simp only [unread, List.mem_range'_1]
    simp only [unread, List.length_range'] at below
    omega

theorem lastDelivered_read_le_length
    {group : Group} {log : Log Fields} {limit : Option Nat} {now : Nat}
    (bounded : group.lastDelivered ≤ log.entries.length) :
    (group.read log limit now).lastDelivered ≤ log.entries.length := by
  have trimmedBound := log.bounded
  have first : group.firstUnread log = max group.lastDelivered log.trimmed :=
    rfl
  simp only [read, unread, List.length_range']
  split
  · exact bounded
  · cases limit with
    | none =>
        simp only [Option.elim_none]
        omega
    | some count =>
        simp only [Option.elim_some]
        omega

/-! ## Acknowledging -/

def ack (group : Group) (id : Nat) : Group where
  lastDelivered := group.lastDelivered
  pending := group.pending.filter fun entry => entry.id ≠ id
  ordered := group.ordered.filter _
  handedOut := by
    intro entry member
    exact group.handedOut entry (List.mem_of_mem_filter member)

theorem mem_ack_pending (group : Group) (id : Nat) (entry : PendingEntry) :
    entry ∈ (group.ack id).pending ↔
      entry ∈ group.pending ∧ entry.id ≠ id := by
  simp [ack, List.mem_filter]

theorem pending_ack_iff (group : Group) (acked id : Nat) :
    (group.ack acked).Pending id ↔ group.Pending id ∧ id ≠ acked := by
  constructor
  · rintro ⟨entry, member, rfl⟩
    obtain ⟨old, other⟩ := (mem_ack_pending group acked entry).mp member
    exact ⟨⟨entry, old, rfl⟩, other⟩
  · rintro ⟨⟨entry, member, rfl⟩, other⟩
    exact ⟨entry, (mem_ack_pending group acked entry).mpr ⟨member, other⟩, rfl⟩

/-! ## Looking up delivery counts -/

/-- How many times a pending entry has been delivered. -/
def timesDelivered? (group : Group) (id : Nat) : Option Nat :=
  (group.pending.find? fun entry => entry.id = id).map
    PendingEntry.timesDelivered

theorem timesDelivered?_eq_some
    {group : Group} {id count : Nat}
    (found : group.timesDelivered? id = some count) :
    ∃ entry ∈ group.pending, entry.id = id ∧ entry.timesDelivered = count := by
  obtain ⟨entry, located, same⟩ := Option.map_eq_some_iff.mp found
  exact ⟨entry, List.mem_of_find?_eq_some located,
    by simpa using List.find?_some located, same⟩

theorem timesDelivered?_eq_none
    {group : Group} {id : Nat}
    (missing : group.timesDelivered? id = none) : ¬ group.Pending id := by
  rintro ⟨entry, member, same⟩
  have nowhere := List.find?_eq_none.mp (Option.map_eq_none_iff.mp missing)
  exact nowhere entry member (by simpa using same)

/-! ## Claiming idle entries -/

/-- What one scan of a pending list found: where it stopped, the ids it handed
out again, the ids whose entries are gone, and the list it leaves. -/
structure Scan where
  cursor : Option Nat
  claimed : List Nat
  deleted : List Nat
  pending : List PendingEntry

/-- Scan a pending list from `startId` on.  At most `attempts` entries are
looked at and `count` ids are answered.  An entry that is no longer in the
stream leaves the list; an idle one is handed out again, which counts as a
delivery and resets its idle time; the others stay as they are. -/
def scan (live : Nat → Bool) (idle : PendingEntry → Bool)
    (now startId : Nat) : Nat → Nat → List PendingEntry → Scan
  | _, _, [] => ⟨none, [], [], []⟩
  | attempts, count, entry :: rest =>
      if entry.id < startId then
        let later := scan live idle now startId attempts count rest
        { later with pending := entry :: later.pending }
      else
        match attempts, count with
        | attempts + 1, count + 1 =>
            if live entry.id = false then
              let later := scan live idle now startId attempts count rest
              { later with deleted := entry.id :: later.deleted }
            else if idle entry then
              let later := scan live idle now startId attempts count rest
              { later with
                claimed := entry.id :: later.claimed
                pending := entry.redelivered now :: later.pending }
            else
              let later :=
                scan live idle now startId attempts (count + 1) rest
              { later with pending := entry :: later.pending }
        | _, _ => ⟨some entry.id, [], [], entry :: rest⟩

section Scan

variable {live : Nat → Bool} {idle : PendingEntry → Bool}
  {now startId : Nat}

theorem scan_claimed_sublist (attempts count : Nat)
    (entries : List PendingEntry) :
    (scan live idle now startId attempts count entries).claimed.Sublist
      (entries.map PendingEntry.id) := by
  fun_induction scan live idle now startId attempts count entries with
  | case1 => exact List.Sublist.refl []
  | case2 attempts count entry rest early later inductionHypothesis =>
      exact inductionHypothesis.cons entry.id
  | case3 entry rest late attempts count gone later inductionHypothesis =>
      exact inductionHypothesis.cons entry.id
  | case4 entry rest late attempts count present stale later
      inductionHypothesis =>
      exact inductionHypothesis.cons_cons entry.id
  | case5 entry rest late attempts count present recent later
      inductionHypothesis =>
      exact inductionHypothesis.cons entry.id
  | case6 => exact List.nil_sublist _

theorem scan_deleted_sublist (attempts count : Nat)
    (entries : List PendingEntry) :
    (scan live idle now startId attempts count entries).deleted.Sublist
      (entries.map PendingEntry.id) := by
  fun_induction scan live idle now startId attempts count entries with
  | case1 => exact List.Sublist.refl []
  | case2 attempts count entry rest early later inductionHypothesis =>
      exact inductionHypothesis.cons entry.id
  | case3 entry rest late attempts count gone later inductionHypothesis =>
      exact inductionHypothesis.cons_cons entry.id
  | case4 entry rest late attempts count present stale later
      inductionHypothesis =>
      exact inductionHypothesis.cons entry.id
  | case5 entry rest late attempts count present recent later
      inductionHypothesis =>
      exact inductionHypothesis.cons entry.id
  | case6 => exact List.nil_sublist _

theorem live_of_mem_scan_claimed {attempts count id : Nat}
    {entries : List PendingEntry}
    (member : id ∈ (scan live idle now startId attempts count entries).claimed) :
    live id = true := by
  fun_induction scan live idle now startId attempts count entries with
  | case1 => simp at member
  | case2 attempts count entry rest early later inductionHypothesis =>
      exact inductionHypothesis member
  | case3 entry rest late attempts count gone later inductionHypothesis =>
      exact inductionHypothesis member
  | case4 entry rest late attempts count present stale later
      inductionHypothesis =>
      rcases List.mem_cons.mp member with rfl | tailMember
      · simpa using present
      · exact inductionHypothesis tailMember
  | case5 entry rest late attempts count present recent later
      inductionHypothesis =>
      exact inductionHypothesis member
  | case6 => simp at member

theorem dead_of_mem_scan_deleted {attempts count id : Nat}
    {entries : List PendingEntry}
    (member : id ∈ (scan live idle now startId attempts count entries).deleted) :
    live id = false := by
  fun_induction scan live idle now startId attempts count entries with
  | case1 => simp at member
  | case2 attempts count entry rest early later inductionHypothesis =>
      exact inductionHypothesis member
  | case3 entry rest late attempts count gone later inductionHypothesis =>
      rcases List.mem_cons.mp member with rfl | tailMember
      · exact gone
      · exact inductionHypothesis tailMember
  | case4 entry rest late attempts count present stale later
      inductionHypothesis =>
      exact inductionHypothesis member
  | case5 entry rest late attempts count present recent later
      inductionHypothesis =>
      exact inductionHypothesis member
  | case6 => simp at member

/-- What a scan makes of one entry, told from its two lists of ids. -/
def Scan.outcome (found : Scan) (now : Nat) (entry : PendingEntry) :
    Option PendingEntry :=
  if entry.id ∈ found.deleted then none
  else if entry.id ∈ found.claimed then some (entry.redelivered now)
  else some entry

theorem Scan.outcome_id {found : Scan} {entry left : PendingEntry}
    (outcome : found.outcome now entry = some left) : left.id = entry.id := by
  unfold Scan.outcome at outcome
  split at outcome
  · cases outcome
  · split at outcome
    · cases outcome
      rfl
    · cases outcome
      rfl

private theorem filterMap_outcome_congr
    {left right : Scan} {entries : List PendingEntry}
    (deleted : ∀ entry ∈ entries,
      entry.id ∈ left.deleted ↔ entry.id ∈ right.deleted)
    (claimed : ∀ entry ∈ entries,
      entry.id ∈ left.claimed ↔ entry.id ∈ right.claimed) :
    entries.filterMap (left.outcome now) =
      entries.filterMap (right.outcome now) := by
  apply List.filterMap_congr
  intro entry member
  simp only [Scan.outcome, deleted entry member, claimed entry member]

private theorem head_not_mem_map
    {entry : PendingEntry} {rest : List PendingEntry}
    (ordered :
      (entry :: rest).Pairwise fun earlier later => earlier.id < later.id) :
    entry.id ∉ rest.map PendingEntry.id := by
  intro member
  obtain ⟨later, laterMember, same⟩ := List.mem_map.mp member
  have order := (List.pairwise_cons.mp ordered).1 later laterMember
  omega

private theorem mem_cons_iff_of_later
    {entry later : PendingEntry} {rest : List PendingEntry} {ids : List Nat}
    (absent : entry.id ∉ rest.map PendingEntry.id)
    (laterMember : later ∈ rest) :
    later.id ∈ ids ↔ later.id ∈ entry.id :: ids := by
  have different : later.id ≠ entry.id := by
    intro same
    exact absent (List.mem_map.mpr ⟨later, laterMember, same⟩)
  simp [different]

/-- A scan of the later entries makes nothing of an earlier one. -/
private theorem outcome_of_absent (attempts count : Nat)
    {entry : PendingEntry} {rest : List PendingEntry}
    (absent : entry.id ∉ rest.map PendingEntry.id) :
    (scan live idle now startId attempts count rest).outcome now entry =
      some entry := by
  have notDeleted : entry.id ∉
      (scan live idle now startId attempts count rest).deleted :=
    fun member => absent ((scan_deleted_sublist _ _ _).subset member)
  have notClaimed : entry.id ∉
      (scan live idle now startId attempts count rest).claimed :=
    fun member => absent ((scan_claimed_sublist _ _ _).subset member)
  simp [Scan.outcome, notDeleted, notClaimed]

/-- A scan drops the deleted entries, redelivers the claimed ones and leaves
the rest as it was. -/
theorem scan_pending (attempts count : Nat) {entries : List PendingEntry}
    (ordered : entries.Pairwise fun earlier later => earlier.id < later.id) :
    (scan live idle now startId attempts count entries).pending =
      entries.filterMap
        ((scan live idle now startId attempts count entries).outcome now) := by
  fun_induction scan live idle now startId attempts count entries with
  | case1 => rfl
  | case2 attempts count entry rest early later inductionHypothesis =>
      have tail := inductionHypothesis (List.pairwise_cons.mp ordered).2
      have head : later.outcome now entry = some entry :=
        outcome_of_absent _ _ (head_not_mem_map ordered)
      change entry :: later.pending = (entry :: rest).filterMap (later.outcome now)
      rw [List.filterMap_cons_some head, ← tail]
  | case3 entry rest late attempts count gone later inductionHypothesis =>
      have absent := head_not_mem_map ordered
      have tail := inductionHypothesis (List.pairwise_cons.mp ordered).2
      let found : Scan := { later with deleted := entry.id :: later.deleted }
      have head : found.outcome now entry = none := by
        simp [found, Scan.outcome]
      have same : rest.filterMap (later.outcome now) =
          rest.filterMap (found.outcome now) :=
        filterMap_outcome_congr
          (fun _ member => mem_cons_iff_of_later absent member)
          (fun _ _ => Iff.rfl)
      change later.pending = (entry :: rest).filterMap (found.outcome now)
      rw [List.filterMap_cons_none head, ← same, ← tail]
  | case4 entry rest late attempts count present stale later
      inductionHypothesis =>
      have absent := head_not_mem_map ordered
      have notDeleted : entry.id ∉ later.deleted :=
        fun member => absent ((scan_deleted_sublist _ _ _).subset member)
      have tail := inductionHypothesis (List.pairwise_cons.mp ordered).2
      let found : Scan := { later with claimed := entry.id :: later.claimed }
      have head : found.outcome now entry = some (entry.redelivered now) := by
        simp [found, Scan.outcome, notDeleted]
      have same : rest.filterMap (later.outcome now) =
          rest.filterMap (found.outcome now) :=
        filterMap_outcome_congr (fun _ _ => Iff.rfl)
          (fun _ member => mem_cons_iff_of_later absent member)
      change entry.redelivered now :: later.pending =
        (entry :: rest).filterMap (found.outcome now)
      rw [List.filterMap_cons_some head, ← same, ← tail]
  | case5 entry rest late attempts count present recent later
      inductionHypothesis =>
      have tail := inductionHypothesis (List.pairwise_cons.mp ordered).2
      have head : later.outcome now entry = some entry :=
        outcome_of_absent _ _ (head_not_mem_map ordered)
      change entry :: later.pending = (entry :: rest).filterMap (later.outcome now)
      rw [List.filterMap_cons_some head, ← tail]
  | case6 attempts count entry rest late =>
      have untouched :
          (Scan.mk (some entry.id) [] [] (entry :: rest)).outcome now =
            some := by
        funext other
        simp [Scan.outcome]
      rw [untouched, List.filterMap_some]

end Scan

/-- Scan the pending list with these limits: an entry counts as idle when its
last delivery is at least `minIdle` ago, and ten entries may be looked at for
each one answered. -/
def claimScan (group : Group) (log : Log Fields)
    (now minIdle startId count : Nat) : Scan :=
  scan (fun id => decide (log.Live id))
    (fun entry => decide (entry.deliveredAt + minIdle ≤ now))
    now startId (10 * count) count group.pending

/-- The group after its idle entries were claimed. -/
def claim (group : Group) (log : Log Fields)
    (now minIdle startId count : Nat) : Group where
  lastDelivered := group.lastDelivered
  pending := (group.claimScan log now minIdle startId count).pending
  ordered := by
    rw [claimScan, scan_pending _ _ group.ordered, List.pairwise_filterMap]
    refine group.ordered.imp ?_
    intro earlier later order left leftOutcome right rightOutcome
    rw [Scan.outcome_id leftOutcome, Scan.outcome_id rightOutcome]
    exact order
  handedOut := by
    intro entry member
    rw [claimScan, scan_pending _ _ group.ordered] at member
    obtain ⟨old, oldMember, outcome⟩ := List.mem_filterMap.mp member
    rw [Scan.outcome_id outcome]
    exact group.handedOut old oldMember

section Claim

variable {group : Group} {log : Log Fields} {now minIdle startId count : Nat}

/-- Every entry of the new list is an old one, redelivered if it was claimed
and unchanged otherwise. -/
theorem mem_claim_pending {entry : PendingEntry}
    (member : entry ∈ (group.claim log now minIdle startId count).pending) :
    ∃ old ∈ group.pending,
      (entry.id ∈ (group.claimScan log now minIdle startId count).claimed ∧
          entry = old.redelivered now) ∨
        (entry.id ∉ (group.claimScan log now minIdle startId count).claimed ∧
          entry = old) := by
  change entry ∈ (group.claimScan log now minIdle startId count).pending
    at member
  rw [claimScan, scan_pending _ _ group.ordered] at member
  obtain ⟨old, oldMember, outcome⟩ := List.mem_filterMap.mp member
  refine ⟨old, oldMember, ?_⟩
  unfold Scan.outcome at outcome
  split at outcome
  case isTrue deleted => cases outcome
  case isFalse kept =>
    split at outcome
    case isTrue claimed =>
      cases outcome
      exact Or.inl ⟨claimed, rfl⟩
    case isFalse untouched =>
      cases outcome
      exact Or.inr ⟨untouched, rfl⟩

theorem pending_claim_iff (id : Nat) :
    (group.claim log now minIdle startId count).Pending id ↔
      group.Pending id ∧
        id ∉ (group.claimScan log now minIdle startId count).deleted := by
  simp only [Pending, claim]
  rw [claimScan, scan_pending _ _ group.ordered]
  constructor
  · rintro ⟨entry, member, rfl⟩
    obtain ⟨old, oldMember, outcome⟩ := List.mem_filterMap.mp member
    rw [Scan.outcome_id outcome]
    refine ⟨⟨old, oldMember, rfl⟩, ?_⟩
    intro deleted
    simp [Scan.outcome, deleted] at outcome
  · rintro ⟨⟨old, oldMember, rfl⟩, kept⟩
    by_cases claimed :
        old.id ∈ (group.claimScan log now minIdle startId count).claimed
    · refine ⟨old.redelivered now, List.mem_filterMap.mpr ⟨old, oldMember, ?_⟩,
        rfl⟩
      rw [claimScan] at claimed
      simp [Scan.outcome, kept, claimed]
    · refine ⟨old, List.mem_filterMap.mpr ⟨old, oldMember, ?_⟩, rfl⟩
      rw [claimScan] at claimed
      simp [Scan.outcome, kept, claimed]

theorem live_of_claimed {id : Nat}
    (member : id ∈ (group.claimScan log now minIdle startId count).claimed) :
    log.Live id := by
  have live := live_of_mem_scan_claimed member
  simpa using live

theorem not_live_of_deleted {id : Nat}
    (member : id ∈ (group.claimScan log now minIdle startId count).deleted) :
    ¬ log.Live id := by
  have dead := dead_of_mem_scan_deleted member
  simpa using dead

theorem pending_of_claimed {id : Nat}
    (member : id ∈ (group.claimScan log now minIdle startId count).claimed) :
    group.Pending id := by
  obtain ⟨entry, entryMember, same⟩ :=
    List.mem_map.mp ((scan_claimed_sublist _ _ _).subset member)
  exact ⟨entry, entryMember, same⟩

theorem pending_claim_of_claimed {id : Nat}
    (member : id ∈ (group.claimScan log now minIdle startId count).claimed) :
    (group.claim log now minIdle startId count).Pending id := by
  refine (pending_claim_iff id).mpr ⟨pending_of_claimed member, ?_⟩
  intro deleted
  exact not_live_of_deleted deleted (live_of_claimed member)

theorem claimed_nodup :
    (group.claimScan log now minIdle startId count).claimed.Nodup :=
  group.ids_nodup.sublist (scan_claimed_sublist _ _ _)

end Claim

end Group

end Streams
