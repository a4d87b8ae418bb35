import TxnEvents.Streams.ConsumerGroup

/-!
# Sweeping the pending list

Claims one after the other, each from the start of the pending list.  An entry
that is handed out loses its place only until it is idle again, so the entries
at the start come back before those behind them are reached.  `covers_iff` says
which lists are covered by such sweeps.
-/

namespace Streams

/-- The last delivery is at least `minIdle` ago. -/
def PendingEntry.isIdle
    (minIdle now : Nat)
    (entry : PendingEntry) : Bool :=
  decide (entry.deliveredAt + minIdle ≤ now)

namespace Group

/-! ## One scan over live entries -/

section Scan

variable {live : Nat → Bool} {idle keeps : PendingEntry → Bool} {now : Nat}
  {attempts count : Nat} {entries before rest : List PendingEntry}
  {entry : PendingEntry}

/-- A scan that may look at no entry, or answer none, changes nothing. -/
theorem scan_spent
    (spent : attempts = 0 ∨ count = 0) :
    (scan live idle now 0 attempts count entries).claimed = [] ∧
      (scan live idle now 0 attempts count entries).pending = entries := by
  cases entries with
  | nil =>
      rw [scan]
      exact ⟨rfl, rfl⟩
  | cons entry rest =>
      unfold scan
      rw [if_neg (Nat.not_lt_zero entry.id)]
      rcases spent with rfl | rfl
      · exact ⟨rfl, rfl⟩
      · cases attempts with
        | zero => exact ⟨rfl, rfl⟩
        | succ attempts => exact ⟨rfl, rfl⟩

/-- What a scan does at a live entry. -/
theorem scan_cons
    (alive : live entry.id = true)
    (attempts count : Nat) :
    scan live idle now 0 (attempts + 1) (count + 1) (entry :: rest) =
      if idle entry = true then
        let later := scan live idle now 0 attempts count rest
        ⟨later.cursor, entry.id :: later.claimed, later.deleted,
          entry.redelivered now :: later.pending⟩
      else
        let later := scan live idle now 0 attempts (count + 1) rest
        ⟨later.cursor, later.claimed, later.deleted,
          entry :: later.pending⟩ := by
  rw [scan, if_neg (Nat.not_lt_zero entry.id), if_neg (by simp [alive])]

/-- Two cases of a scan over live entries: it stops at once, or the first entry
is looked at. -/
theorem spent_or_succ
    (attempts count : Nat) :
    (attempts = 0 ∨ count = 0) ∨
      ∃ attemptsLeft countLeft,
        attempts = attemptsLeft + 1 ∧ count = countLeft + 1 := by
  by_cases spent : attempts = 0 ∨ count = 0
  · exact Or.inl spent
  · rw [not_or] at spent
    exact Or.inr ⟨attempts - 1, count - 1, by omega, by omega⟩

/-- A scan over live entries goes through the first ones and then, with what
is left of its limits, through the others. -/
theorem scan_append
    (alive : ∀ entry ∈ before, live entry.id = true) :
    (scan live idle now 0 attempts count (before ++ rest)).claimed =
        (scan live idle now 0 attempts count before).claimed ++
          (scan live idle now 0 (attempts - before.length)
            (count - (before.take attempts).countP idle) rest).claimed ∧
      (scan live idle now 0 attempts count (before ++ rest)).pending =
        (scan live idle now 0 attempts count before).pending ++
          (scan live idle now 0 (attempts - before.length)
            (count - (before.take attempts).countP idle) rest).pending := by
  induction before generalizing attempts count with
  | nil => simp [scan]
  | cons entry before inductionHypothesis =>
      rcases spent_or_succ attempts count with
        spent | ⟨attemptsLeft, countLeft, rfl, rfl⟩
      · have later : attempts - (entry :: before).length = 0 ∨
            count - ((entry :: before).take attempts).countP idle = 0 := by
          omega
        rw [(scan_spent spent).1, (scan_spent spent).2, (scan_spent spent).1,
          (scan_spent spent).2, (scan_spent later).1, (scan_spent later).2]
        exact ⟨rfl, rfl⟩
      · rw [List.forall_mem_cons] at alive
        rw [List.cons_append, scan_cons alive.1, scan_cons alive.1,
          List.length_cons, Nat.add_sub_add_right, List.take_succ_cons]
        by_cases isIdle : idle entry = true
        · rw [if_pos isIdle, if_pos isIdle, List.countP_cons_of_pos isIdle,
            Nat.add_sub_add_right]
          simp only [inductionHypothesis alive.2, List.cons_append]
          exact ⟨trivial, trivial⟩
        · rw [if_neg isIdle, if_neg isIdle, List.countP_cons_of_neg isIdle]
          simp only [inductionHypothesis alive.2, List.cons_append]
          exact ⟨trivial, trivial⟩

/-- An entry is handed out when it is idle, near enough, and not behind too
many idle ones. -/
theorem mem_claimed_iff
    (alive : ∀ other ∈ before ++ entry :: rest, live other.id = true)
    (distinct : ((before ++ entry :: rest).map PendingEntry.id).Nodup) :
    entry.id ∈ (scan live idle now 0 attempts count
        (before ++ entry :: rest)).claimed ↔
      idle entry = true ∧ before.length < attempts ∧
        before.countP idle < count := by
  rw [List.forall_mem_append, List.forall_mem_cons] at alive
  rw [List.map_append, List.map_cons, List.nodup_middle, List.nodup_cons,
    List.mem_append, not_or] at distinct
  have notBefore : entry.id ∉ (scan live idle now 0 attempts count
      before).claimed :=
    fun member => distinct.1.1 ((scan_claimed_sublist _ _ _).subset member)
  have notLater : ∀ attempts count, entry.id ∉
      (scan live idle now 0 attempts count rest).claimed :=
    fun _ _ member => distinct.1.2 ((scan_claimed_sublist _ _ _).subset member)
  rw [(scan_append alive.1).1, List.mem_append, or_iff_right notBefore]
  rcases spent_or_succ (attempts - before.length)
      (count - (before.take attempts).countP idle) with
    spent | ⟨attemptsLeft, countLeft, someAttempts, someCount⟩
  · rw [(scan_spent spent).1]
    constructor
    · intro impossible
      cases impossible
    · rintro ⟨_, near, few⟩
      rw [List.take_of_length_le (Nat.le_of_lt near)] at spent
      omega
  · have near : before.length < attempts := by omega
    rw [List.take_of_length_le (Nat.le_of_lt near)] at someCount ⊢
    rw [someAttempts, someCount, scan_cons alive.2.1]
    by_cases isIdle : idle entry = true
    · rw [if_pos isIdle]
      exact iff_of_true List.mem_cons_self ⟨isIdle, near, by omega⟩
    · rw [if_neg isIdle]
      exact iff_of_false (notLater _ _) fun reached => isIdle reached.1

/-- An entry that is not handed out stays as it is. -/
theorem scan_split
    (alive : ∀ other ∈ before, live other.id = true)
    (here : live entry.id = true)
    (missed : entry.id ∉ (scan live idle now 0 attempts count
      (before ++ entry :: rest)).claimed) :
    ∃ later, (scan live idle now 0 attempts count
        (before ++ entry :: rest)).pending =
      (scan live idle now 0 attempts count before).pending ++
        entry :: later := by
  rw [(scan_append alive).1, List.mem_append, not_or] at missed
  rw [(scan_append alive).2]
  rcases spent_or_succ (attempts - before.length)
      (count - (before.take attempts).countP idle) with
    spent | ⟨attemptsLeft, countLeft, someAttempts, someCount⟩
  · rw [(scan_spent spent).2]
    exact ⟨rest, rfl⟩
  · rw [someAttempts, someCount, scan_cons here] at missed ⊢
    by_cases isIdle : idle entry = true
    · rw [if_pos isIdle] at missed
      exact absurd List.mem_cons_self missed.2
    · rw [if_neg isIdle]
      exact ⟨_, rfl⟩

theorem ids_scan
    (alive : ∀ entry ∈ entries, live entry.id = true) :
    (scan live idle now 0 attempts count entries).pending.map
      PendingEntry.id = entries.map PendingEntry.id := by
  induction entries generalizing attempts count with
  | nil => rfl
  | cons entry rest inductionHypothesis =>
      rw [List.forall_mem_cons] at alive
      rcases spent_or_succ attempts count with
        spent | ⟨attemptsLeft, countLeft, rfl, rfl⟩
      · rw [(scan_spent spent).2]
      · rw [scan_cons alive.1]
        split
        · simp only [List.map_cons, inductionHypothesis alive.2]
          rfl
        · simp only [List.map_cons, inductionHypothesis alive.2]

/-- Those that are handed out again lose a property that a fresh delivery does
not have. -/
theorem countP_scan_add
    (attempts count : Nat)
    (alive : ∀ entry ∈ entries, live entry.id = true)
    (near : entries.length ≤ attempts)
    (weaker : ∀ entry, idle entry = true → keeps entry = true)
    (fresh : ∀ entry : PendingEntry,
      keeps (entry.redelivered now) = false) :
    (scan live idle now 0 attempts count entries).pending.countP keeps +
        min count (entries.countP idle) = entries.countP keeps := by
  induction entries generalizing attempts count with
  | nil => simp [scan]
  | cons entry rest inductionHypothesis =>
      rw [List.forall_mem_cons] at alive
      rcases spent_or_succ attempts count with
        spent | ⟨attemptsLeft, countLeft, rfl, rfl⟩
      · have none : count = 0 := by
          rw [List.length_cons] at near
          omega
        rw [(scan_spent spent).2, none, Nat.zero_min, Nat.add_zero]
      · rw [List.length_cons, Nat.add_le_add_iff_right] at near
        rw [scan_cons alive.1]
        by_cases isIdle : idle entry = true
        · have rested :=
            inductionHypothesis attemptsLeft countLeft alive.2 near
          rw [if_pos isIdle, List.countP_cons_of_pos isIdle,
            List.countP_cons_of_pos (weaker entry isIdle)]
          simp only [List.countP_cons, fresh, Bool.false_eq_true, if_false]
          omega
        · have rested :=
            inductionHypothesis attemptsLeft (countLeft + 1) alive.2 near
          rw [if_neg isIdle, List.countP_cons_of_neg isIdle]
          simp only [List.countP_cons]
          omega

/-- A property that fresh deliveries have is not lost. -/
theorem countP_le_scan
    (attempts count : Nat)
    {wider : PendingEntry → Bool}
    (alive : ∀ entry ∈ entries, live entry.id = true)
    (weaker : ∀ entry, keeps entry = true → wider entry = true)
    (fresh : ∀ entry : PendingEntry,
      wider (entry.redelivered now) = true) :
    entries.countP keeps ≤
      (scan live idle now 0 attempts count entries).pending.countP wider := by
  induction entries generalizing attempts count with
  | nil => simp
  | cons entry rest inductionHypothesis =>
      rw [List.forall_mem_cons] at alive
      rcases spent_or_succ attempts count with
        spent | ⟨attemptsLeft, countLeft, rfl, rfl⟩
      · rw [(scan_spent spent).2]
        exact List.countP_mono_left fun other _ => weaker other
      · rw [scan_cons alive.1]
        have bounded : [entry].countP keeps ≤ [entry].countP wider :=
          List.countP_mono_left fun other _ => weaker other
        rw [List.countP_singleton, List.countP_singleton] at bounded
        by_cases isIdle : idle entry = true
        · have rested := inductionHypothesis attemptsLeft countLeft alive.2
          rw [if_pos isIdle]
          have one : (if wider entry = true then 1 else 0) ≤ 1 := by
            split <;> omega
          simp only [List.countP_cons, fresh, if_true]
          omega
        · have rested :=
            inductionHypothesis attemptsLeft (countLeft + 1) alive.2
          rw [if_neg isIdle]
          simp only [List.countP_cons]
          omega

end Scan

/-! ## One sweep after the other -/

section Sweeps

variable {Fields : Type} {log : Log Fields} {minIdle count now : Nat}
  {group : Group} {before rest : List PendingEntry} {entry : PendingEntry}

/-- What claims from the start of the list hand out, the first one now, and
each of the others so many milliseconds after the one before it. -/
def sweeps (log : Log Fields) (minIdle count : Nat) :
    Group → Nat → List Nat → List (List Nat)
  | _, _, [] => []
  | group, now, gap :: gaps =>
      (group.claimScan log now minIdle 0 count).claimed ::
        sweeps log minIdle count (group.claim log now minIdle 0 count)
          (now + gap) gaps

/-- Enough sweeps, less than the idle time apart, hand out every entry that is
idle now. -/
def Covers
    (log : Log Fields)
    (minIdle count : Nat)
    (group : Group)
    (now : Nat) : Prop :=
  ∃ enough, ∀ gaps : List Nat, enough ≤ gaps.length →
    (∀ gap ∈ gaps, gap < minIdle) →
      ∀ entry ∈ group.pending, entry.isIdle minIdle now = true →
        ∃ claimed ∈ sweeps log minIdle count group now gaps,
          entry.id ∈ claimed

/-- No pending entry was trimmed from the stream. -/
def AllLive (log : Log Fields) (group : Group) : Prop :=
  ∀ entry ∈ group.pending, log.Live entry.id

/-- What a sweep makes of the entries at the start of the list. -/
def swept
    (log : Log Fields)
    (minIdle count now : Nat)
    (before : List PendingEntry) : List PendingEntry :=
  (scan (fun id => decide (log.Live id)) (PendingEntry.isIdle minIdle now)
    now 0 (10 * count) count before).pending

theorem AllLive.decide
    (alive : AllLive log group) :
    ∀ entry ∈ group.pending, decide (log.Live entry.id) = true :=
  fun entry member => decide_eq_true (alive entry member)

theorem ids_claim
    (alive : AllLive log group) :
    (group.claim log now minIdle 0 count).pending.map PendingEntry.id =
      group.pending.map PendingEntry.id :=
  ids_scan alive.decide

theorem AllLive.claim
    (alive : AllLive log group) :
    AllLive log (group.claim log now minIdle 0 count) := by
  intro entry member
  have listed : entry.id ∈ group.pending.map PendingEntry.id := by
    rw [← ids_claim alive]
    exact List.mem_map_of_mem member
  rcases List.mem_map.mp listed with ⟨old, oldMember, same⟩
  rw [← same]
  exact alive old oldMember

theorem length_swept
    (alive : ∀ entry ∈ before, log.Live entry.id) :
    (swept log minIdle count now before).length = before.length := by
  have same : (swept log minIdle count now before).map PendingEntry.id =
      before.map PendingEntry.id :=
    ids_scan fun entry member => decide_eq_true (alive entry member)
  simpa using congrArg List.length same

/-- The entry is handed out when it is idle, among the first `10 * count`, and
fewer than `count` idle ones come before it. -/
theorem claimed_iff
    (alive : AllLive log group)
    (split : group.pending = before ++ entry :: rest) :
    entry.id ∈ (group.claimScan log now minIdle 0 count).claimed ↔
      entry.isIdle minIdle now = true ∧ before.length < 10 * count ∧
        before.countP (PendingEntry.isIdle minIdle now) < count := by
  have lives := alive.decide
  have distinct := group.ids_nodup
  rw [split] at lives distinct
  rw [claimScan, split]
  exact mem_claimed_iff lives distinct

theorem claim_split
    (alive : AllLive log group)
    (split : group.pending = before ++ entry :: rest)
    (missed : entry.id ∉ (group.claimScan log now minIdle 0 count).claimed) :
    ∃ later, (group.claim log now minIdle 0 count).pending =
      swept log minIdle count now before ++ entry :: later := by
  have lives := alive.decide
  rw [split, List.forall_mem_append, List.forall_mem_cons] at lives
  rw [claimScan, split] at missed
  change ∃ later, (scan _ _ now 0 (10 * count) count group.pending).pending =
    _ ++ entry :: later
  rw [split]
  exact scan_split lives.1 lives.2.1 missed

/-- The idle entries that a sweep leaves, of those that are idle at a later
time within the idle time. -/
theorem countP_swept_add
    (now : Nat)
    (alive : ∀ entry ∈ before, log.Live entry.id)
    (near : before.length < 10 * count)
    {gap : Nat}
    (short : gap < minIdle) :
    (swept log minIdle count now before).countP
          (PendingEntry.isIdle minIdle (now + gap)) +
        min count (before.countP (PendingEntry.isIdle minIdle now)) =
      before.countP (PendingEntry.isIdle minIdle (now + gap)) := by
  apply countP_scan_add
  · exact fun entry member => decide_eq_true (alive entry member)
  · exact Nat.le_of_lt near
  · intro entry isIdle
    simp only [PendingEntry.isIdle, decide_eq_true_eq] at isIdle ⊢
    omega
  · intro entry
    change decide (now + minIdle ≤ now + gap) = false
    rw [decide_eq_false_iff_not]
    omega

/-! ### Who is reached -/

/-- The entry behind these ones is reached: it is near enough, and at most so
many idle ones are before it that two sweeps hand them out. -/
structure WithinReach
    (minIdle count now : Nat)
    (before : List PendingEntry) : Prop where
  near : before.length < 10 * count
  few : minIdle = 1 ∨
    before.countP (PendingEntry.isIdle minIdle now) < count ∨
      before.countP (PendingEntry.isIdle 1 now) < 2 * count

theorem reached_at_once
    (alive : AllLive log group)
    (split : group.pending = before ++ entry :: rest)
    (isIdle : entry.isIdle minIdle now = true)
    (near : before.length < 10 * count)
    (few : before.countP (PendingEntry.isIdle minIdle now) < count)
    (gap : Nat)
    (gaps : List Nat) :
    ∃ claimed ∈ sweeps log minIdle count group now (gap :: gaps),
      entry.id ∈ claimed :=
  ⟨_, List.mem_cons_self, (claimed_iff alive split).mpr ⟨isIdle, near, few⟩⟩

theorem live_of_split
    (alive : AllLive log group)
    (split : group.pending = before ++ entry :: rest) :
    ∀ other ∈ before, log.Live other.id := by
  intro other member
  apply alive
  rw [split]
  exact List.mem_append_left _ member

/-- What the first sweep has handed out is not idle at the second one. -/
theorem reached_by_two
    (alive : AllLive log group)
    (split : group.pending = before ++ entry :: rest)
    (isIdle : entry.isIdle minIdle now = true)
    (near : before.length < 10 * count)
    (few : before.countP (PendingEntry.isIdle 1 now) < 2 * count)
    {gap : Nat}
    (short : gap < minIdle)
    (next : Nat)
    (gaps : List Nat) :
    ∃ claimed ∈ sweeps log minIdle count group now (gap :: next :: gaps),
      entry.id ∈ claimed := by
  by_cases first :
      entry.id ∈ (group.claimScan log now minIdle 0 count).claimed
  · exact ⟨_, List.mem_cons_self, first⟩
  · have lives := live_of_split alive split
    have crowded : count ≤
        before.countP (PendingEntry.isIdle minIdle now) := by
      by_contra room
      exact first ((claimed_iff alive split).mpr ⟨isIdle, near, by omega⟩)
    have left := countP_swept_add now lives near short
    have older : before.countP (PendingEntry.isIdle minIdle (now + gap)) ≤
        before.countP (PendingEntry.isIdle 1 now) := by
      apply List.countP_mono_left
      intro other _ later
      simp only [PendingEntry.isIdle, decide_eq_true_eq] at later ⊢
      omega
    rcases claim_split alive split first with ⟨later, splitLater⟩
    have stillIdle : entry.isIdle minIdle (now + gap) = true := by
      simp only [PendingEntry.isIdle, decide_eq_true_eq] at isIdle ⊢
      omega
    rcases reached_at_once alive.claim splitLater stillIdle
        (by rw [length_swept lives]; exact near) (by omega) next gaps with
      ⟨claimed, member, here⟩
    exact ⟨claimed, List.mem_cons_of_mem _ member, here⟩

/-- When no entry is idle again, the sweeps go through the list. -/
theorem reached_in_turn
    (alive : AllLive log group)
    (split : group.pending = before ++ entry :: rest)
    (isIdle : entry.isIdle 1 now = true)
    (near : before.length < 10 * count)
    {gaps : List Nat}
    (short : ∀ gap ∈ gaps, gap < 1)
    (enough : before.countP (PendingEntry.isIdle 1 now) < gaps.length) :
    ∃ claimed ∈ sweeps log 1 count group now gaps, entry.id ∈ claimed := by
  induction gaps generalizing group before rest with
  | nil => simp at enough
  | cons gap gaps inductionHypothesis =>
      by_cases first : entry.id ∈ (group.claimScan log now 1 0 count).claimed
      · exact ⟨_, List.mem_cons_self, first⟩
      · have lives := live_of_split alive split
        have crowded : count ≤
            before.countP (PendingEntry.isIdle 1 now) := by
          by_contra room
          exact first ((claimed_iff alive split).mpr
            ⟨isIdle, near, by omega⟩)
        rw [List.forall_mem_cons] at short
        have left := countP_swept_add now lives near short.1
        have same : now + gap = now := by omega
        rw [same] at left
        rw [List.length_cons] at enough
        rcases claim_split alive split first with ⟨later, splitLater⟩
        rcases inductionHypothesis alive.claim splitLater
            (by rw [length_swept lives]; exact near) short.2 (by omega) with
          ⟨claimed, member, here⟩
        rw [sweeps, same]
        exact ⟨claimed, List.mem_cons_of_mem _ member, here⟩

/-! ### Who is not -/

/-- The entry behind these ones is out of reach, or every sweep finds enough
idle entries before it. -/
def Blocked
    (minIdle count now : Nat)
    (before : List PendingEntry) : Prop :=
  10 * count ≤ before.length ∨
    2 ≤ minIdle ∧ before.length < 10 * count ∧
      count ≤ before.countP (PendingEntry.isIdle minIdle now) ∧
        2 * count ≤ before.countP (PendingEntry.isIdle 1 now)

theorem blocked_of_not_withinReach
    (positive : minIdle ≠ 0)
    (beyond : ¬ WithinReach minIdle count now before) :
    Blocked minIdle count now before := by
  by_cases near : before.length < 10 * count
  · have crowded : ¬ (minIdle = 1 ∨
        before.countP (PendingEntry.isIdle minIdle now) < count ∨
          before.countP (PendingEntry.isIdle 1 now) < 2 * count) :=
      fun few => beyond ⟨near, few⟩
    rw [not_or, not_or, Nat.not_lt, Nat.not_lt] at crowded
    exact Or.inr ⟨by omega, near, crowded.2.1, crowded.2.2⟩
  · exact Or.inl (Nat.not_lt.mp near)

theorem Blocked.missed
    (blocked : Blocked minIdle count now before)
    (alive : AllLive log group)
    (split : group.pending = before ++ entry :: rest) :
    entry.id ∉ (group.claimScan log now minIdle 0 count).claimed := by
  rw [claimed_iff alive split]
  rintro ⟨_, near, few⟩
  rcases blocked with far | ⟨_, _, crowded, _⟩
  · omega
  · omega

/-- At a pace one millisecond short of the idle time, an entry that is handed
out misses the next sweep and is idle again at the one after it. -/
theorem Blocked.step
    (blocked : Blocked minIdle count now before)
    (alive : ∀ entry ∈ before, log.Live entry.id) :
    Blocked minIdle count (now + (minIdle - 1))
      (swept log minIdle count now before) := by
  rw [Blocked, length_swept alive]
  rcases blocked with far | ⟨long, near, crowded, old⟩
  · exact Or.inl far
  · have short : minIdle - 1 < minIdle := by omega
    have left := countP_swept_add now alive near short
    have same : before.countP
          (PendingEntry.isIdle minIdle (now + (minIdle - 1))) =
        before.countP (PendingEntry.isIdle 1 now) := by
      apply List.countP_congr
      intro other _
      simp only [PendingEntry.isIdle, decide_eq_true_eq]
      omega
    have kept : before.countP (PendingEntry.isIdle 1 now) ≤
        (swept log minIdle count now before).countP
          (PendingEntry.isIdle 1 (now + (minIdle - 1))) := by
      apply countP_le_scan
      · exact fun entry member => decide_eq_true (alive entry member)
      · intro other older
        simp only [PendingEntry.isIdle, decide_eq_true_eq] at older ⊢
        omega
      · intro other
        change decide (now + 1 ≤ now + (minIdle - 1)) = true
        rw [decide_eq_true_eq]
        omega
    exact Or.inr ⟨long, near, by omega, by omega⟩

/-- Sweeps at this pace never hand out a blocked entry. -/
theorem Blocked.never
    (blocked : Blocked minIdle count now before)
    (alive : AllLive log group)
    (split : group.pending = before ++ entry :: rest)
    (number : Nat) :
    ∀ claimed ∈ sweeps log minIdle count group now
        (List.replicate number (minIdle - 1)),
      entry.id ∉ claimed := by
  induction number generalizing group now before rest with
  | zero => simp [sweeps]
  | succ number inductionHypothesis =>
      have missed := blocked.missed alive split
      rcases claim_split alive split missed with ⟨later, splitLater⟩
      have next := blocked.step (live_of_split alive split)
      rw [List.replicate_succ, sweeps, List.forall_mem_cons]
      exact ⟨missed, inductionHypothesis next alive.claim splitLater⟩

/-- Sweeps less than the idle time apart cover the list exactly when every
entry that is idle now is within reach. -/
theorem covers_iff
    (alive : AllLive log group) :
    Covers log minIdle count group now ↔
      minIdle = 0 ∨ ∀ before entry rest,
        group.pending = before ++ entry :: rest →
          entry.isIdle minIdle now = true →
            WithinReach minIdle count now before := by
  constructor
  · rintro ⟨enough, covered⟩
    by_cases zero : minIdle = 0
    · exact Or.inl zero
    · right
      intro before entry rest split isIdle
      by_contra beyond
      have blocked := blocked_of_not_withinReach zero beyond
      have member : entry ∈ group.pending := by
        rw [split]
        exact List.mem_append_right before List.mem_cons_self
      have short : ∀ gap ∈ List.replicate enough (minIdle - 1),
          gap < minIdle := by
        intro gap inside
        rw [List.eq_of_mem_replicate inside]
        omega
      have long : enough ≤ (List.replicate enough (minIdle - 1)).length :=
        Nat.le_of_eq List.length_replicate.symm
      rcases covered _ long short entry member isIdle with
        ⟨claimed, inside, here⟩
      exact blocked.never alive split enough claimed inside here
  · rintro (rfl | within)
    · refine ⟨1, ?_⟩
      intro gaps enough short
      rcases List.exists_mem_of_length_pos enough with ⟨gap, member⟩
      exact absurd (short gap member) (Nat.not_lt_zero gap)
    · refine ⟨group.pending.length + 2, ?_⟩
      intro gaps enough short entry member isIdle
      rcases List.append_of_mem member with ⟨before, rest, split⟩
      rcases within before entry rest split isIdle with ⟨near, few⟩
      have bounded : before.length < group.pending.length := by
        rw [split, List.length_append, List.length_cons]
        omega
      rcases gaps with _ | ⟨gap, _ | ⟨next, gaps⟩⟩
      · simp at enough
      · simp at enough
      · rcases few with rfl | few | few
        · have fewer := List.countP_le_length
            (p := PendingEntry.isIdle 1 now) (l := before)
          exact reached_in_turn alive split isIdle near short (by omega)
        · exact reached_at_once alive split isIdle near few gap _
        · exact reached_by_two alive split isIdle near few
            (short gap List.mem_cons_self) next gaps

end Sweeps

end Group

end Streams
