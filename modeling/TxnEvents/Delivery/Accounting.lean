import TxnEvents.System.Counts

/-!
# Where an event is

A message that the group is done with is accounted for: its event has a row,
or its fields are in the dead-letter stream.  `Kept` states this together with
what trimming must respect, and says step by step what keeps it.
-/

namespace TxnEvents

open Effects Python Streams

/-- The fields are in the dead-letter stream, with a reason. -/
def DeadLettered (state : State) (id : Nat) (fields : Dict) : Prop :=
  ∃ letter ∈ state.redis.deadLetters, letter.origin = id ∧
    ∃ reason, letter.fields = fields.set "reason" reason

/-- The fields parse, and there is a row with the id of the event. -/
def Stored (world : World) (state : State) (fields : Dict) : Prop :=
  ∃ event, parseFields world.unicode world.json fields = .ok event ∧
    event.id ∈ state.db.table.map StoredTransaction.id

def Accounted (world : World) (state : State) (id : Nat) : Prop :=
  ∃ fields, state.entryFields id = some fields ∧
    (DeadLettered state id fields ∨ Stored world state fields)

namespace Grows

variable {before after : State}

theorem entryFields (grows : Grows before after) {id : Nat} {fields : Dict}
    (present : before.entryFields id = some fields) :
    after.entryFields id = some fields := by
  obtain ⟨wire, entry, decoded⟩ := Option.bind_eq_some_iff.mp present
  obtain ⟨newer, equality⟩ := grows.entries
  refine Option.bind_eq_some_iff.mpr ⟨wire, ?_, decoded⟩
  rw [← equality, List.getElem?_append_left]
  · exact entry
  · exact (List.getElem?_eq_some_iff.mp entry).1

theorem mem_table (grows : Grows before after) {id : String}
    (stored : id ∈ before.db.table.map StoredTransaction.id) :
    id ∈ after.db.table.map StoredTransaction.id :=
  (grows.table.map StoredTransaction.id).subset stored

theorem deadLettered (grows : Grows before after) {id : Nat} {fields : Dict}
    (lettered : DeadLettered before id fields) :
    DeadLettered after id fields := by
  obtain ⟨letter, member, origin, reason⟩ := lettered
  exact ⟨letter, grows.deadLetters.subset member, origin, reason⟩

theorem accounted (grows : Grows before after) {world : World} {id : Nat}
    (accounted : Accounted world before id) : Accounted world after id := by
  obtain ⟨fields, entry, lettered | ⟨event, parsed, stored⟩⟩ := accounted
  · exact ⟨fields, grows.entryFields entry,
      Or.inl (grows.deadLettered lettered)⟩
  · exact ⟨fields, grows.entryFields entry,
      Or.inr ⟨event, parsed, grows.mem_table stored⟩⟩

theorem delivered (grows : Grows before after) {task : Tid} {id : Nat}
    (delivered : .delivered task id ∈ before.history) :
    .delivered task id ∈ after.history :=
  grows.history.subset delivered

theorem deliveries_le (grows : Grows before after) (id : Nat) :
    deliveries before.history id ≤ deliveries after.history id :=
  deliveries_le_of_suffix grows.history id

end Grows

/-- Every entry the group is not done with is still there, and every other
one is accounted for. -/
structure Kept (world : World) (state : State) : Prop where
  live : ∀ id < state.redis.stream.entries.length,
    ¬ state.Retired id → state.redis.stream.Live id
  accounted : ∀ id, state.Retired id → Accounted world state id

/-- Adding one entry with the bound `maxlen` may drop none of the entries the
group is not done with, nor the new one. -/
def SafeToTrim (state : State) (maxlen : Int) : Prop :=
  ∀ id : Nat, id ≤ state.redis.stream.entries.length →
    ¬ state.Retired id →
      (state.redis.stream.entries.length : Int) + 1 ≤ id + maxlen

namespace Kept

variable {world : World} {before after : State}

theorem initial : Kept world State.initial where
  live := by
    intro id below
    cases below
  accounted := by
    rintro id ⟨⟨group, found, _⟩, _⟩
    cases found

/-- A step that leaves the stream and the group alone. -/
theorem of_stream_group_eq (kept : Kept world before)
    (grows : Grows before after)
    (stream : after.redis.stream = before.redis.stream)
    (group : after.redis.group = before.redis.group) : Kept world after where
  live := by
    intro id below unfinished
    rw [stream] at below ⊢
    apply kept.live id below
    intro retired
    exact unfinished (grows.retired id retired)
  accounted := by
    intro id retired
    apply grows.accounted
    apply kept.accounted
    simpa only [State.Retired, State.HandedOut, State.Pending, group]
      using retired

/-- A step of the group that hands out what is still in the stream. -/
theorem of_group {new : Group} (kept : Kept world before)
    (grows : Grows before after)
    (stream : after.redis.stream = before.redis.stream)
    (newGroup : after.redis.group = some new)
    (done : ∀ id, id < new.lastDelivered → ¬ new.Pending id →
      before.Retired id) :
    Kept world after where
  live := by
    intro id below unfinished
    rw [stream] at below ⊢
    apply kept.live id below
    intro retired
    exact unfinished (grows.retired id retired)
  accounted := by
    rintro id ⟨⟨group, found, below⟩, notPending⟩
    rw [newGroup] at found
    cases found
    apply grows.accounted
    apply kept.accounted
    apply done id below
    intro pending
    exact notPending ⟨new, newGroup, pending⟩

theorem create {state : State} (kept : Kept world state)
    (none : state.redis.group = none) :
    Kept world { state with redis.group := some Group.fromStart } where
  live := by
    intro id below unfinished
    apply kept.live id below
    rintro ⟨⟨group, found, _⟩, _⟩
    rw [none] at found
    cases found
  accounted := by
    rintro id ⟨⟨group, found, below⟩, _⟩
    cases found
    exact absurd below (Nat.not_lt_zero id)

theorem read {state : State} {task : Tid} {group : Group}
    (kept : Kept world state) (found : state.redis.group = some group)
    (limit : Option Nat) :
    Kept world
      (state.handOut task
        (group.read state.redis.stream limit state.redis.now)
        (group.unread state.redis.stream limit)) := by
  have grows : Grows state
      (state.handOut task
        (group.read state.redis.stream limit state.redis.now)
        (group.unread state.redis.stream limit)) := by
    refine Grows.trans ?_ (Grows.deliver _ task _)
    refine Grows.of_group found rfl rfl rfl rfl rfl
      (Group.lastDelivered_le_read _ _ _ _) ?_
    intro id below notPending pending
    rcases (Group.pending_read_iff _ _ _ _ _).mp pending with old | fresh
    · exact notPending old
    · have bound := (Group.mem_unread fresh).1
      omega
  refine kept.of_group grows rfl rfl ?_
  intro id below notPending
  rw [Group.pending_read_iff, not_or] at notPending
  have notBefore : ¬ state.Pending id := by
    rintro ⟨current, same, pending⟩
    rw [found] at same
    cases same
    exact notPending.1 pending
  refine ⟨⟨group, found, ?_⟩, notBefore⟩
  -- nothing below the new position was passed over: it would be unfinished
  -- and no longer in the stream
  by_contra above
  rcases Group.lt_lastDelivered_read below with old | fresh | passed
  · exact above old
  · exact notPending.2 fresh
  · have within : id < state.redis.stream.entries.length :=
      Nat.lt_of_lt_of_le passed state.redis.stream.bounded
    have unfinished : ¬ state.Retired id := by
      rintro ⟨⟨current, same, old⟩, _⟩
      rw [found] at same
      cases same
      exact above old
    have present := (kept.live id within unfinished).1
    omega

theorem claim {state : State} {task : Tid} {group : Group}
    (kept : Kept world state) (counted : Counted state)
    (found : state.redis.group = some group) (minIdle startId count : Nat) :
    Kept world
      (state.handOut task
        (group.claim state.redis.stream state.redis.now minIdle startId count)
        (group.claimScan state.redis.stream state.redis.now minIdle startId
          count).claimed) := by
  have grows : Grows state
      (state.handOut task
        (group.claim state.redis.stream state.redis.now minIdle startId count)
        (group.claimScan state.redis.stream state.redis.now minIdle startId
          count).claimed) := by
    refine Grows.trans ?_ (Grows.deliver _ task _)
    refine Grows.of_group found rfl rfl rfl rfl rfl (Nat.le_refl _) ?_
    intro id _ notPending pending
    exact notPending ((Group.pending_claim_iff id).mp pending).1
  refine kept.of_group grows rfl rfl ?_
  intro id below notPending
  refine ⟨⟨group, found, below⟩, ?_⟩
  rintro ⟨current, same, pending⟩
  rw [found] at same
  cases same
  -- a pending entry leaves the list only when it is gone from the stream
  apply notPending
  refine (Group.pending_claim_iff id).mpr ⟨pending, ?_⟩
  intro deleted
  have within : id < state.redis.stream.entries.length :=
    Nat.lt_of_lt_of_le below (counted.bounded group found)
  have unfinished : ¬ state.Retired id :=
    fun retired => retired.2 ⟨group, found, pending⟩
  exact Group.not_live_of_deleted deleted (kept.live id within unfinished)

theorem acked {state : State} (kept : Kept world state) {id : Nat}
    (done : Accounted world state id) :
    Kept world (Redis.xack state id).2 where
  live := by
    intro other below unfinished
    apply kept.live other below
    intro retired
    exact unfinished ((grows_xack state id).retired other retired)
  accounted := by
    rintro other ⟨⟨current, found, below⟩, notPending⟩
    obtain ⟨group, old, rfl⟩ := Option.map_eq_some_iff.mp found
    apply (grows_xack state id).accounted
    by_cases same : other = id
    · rw [same]
      exact done
    · apply kept.accounted
      refine ⟨⟨group, old, below⟩, ?_⟩
      rintro ⟨unchanged, stillOld, pending⟩
      rw [old] at stillOld
      cases stillOld
      exact notPending ⟨_, found,
        (Group.pending_ack_iff _ _ _).mpr ⟨pending, same⟩⟩

theorem appended {state : State} {stream : Log WireFields} {fields : Dict}
    {maxlen : Option Int} (kept : Kept world state)
    (safe : ∀ limit, maxlen = some limit → SafeToTrim state limit)
    (appended : Appended state.redis.stream stream fields maxlen)
    (grows : Grows state { state with redis.stream := stream }) :
    Kept world { state with redis.stream := stream } where
  live := by
    intro id below unfinished
    have before : ¬ state.Retired id := unfinished
    have added : (state.redis.stream.add (encodeFields fields)).Live id := by
      rw [Log.live_add_iff]
      have length : id < state.redis.stream.entries.length + 1 := by
        rcases appended with ⟨_, rfl⟩ | ⟨_, _, _, _, rfl⟩
        · simpa using below
        · simpa using below
      rcases Nat.lt_succ_iff_lt_or_eq.mp length with older | newest
      · exact Or.inl (kept.live id older before)
      · exact Or.inr newest
    rcases appended with ⟨_, rfl⟩ | ⟨limit, trimTo, bound, legal, rfl⟩
    · exact added
    · apply Log.live_trim_of_mayTrim legal added
      have within : id ≤ state.redis.stream.entries.length := by
        rcases (Log.live_add_iff _ _ _).mp added with older | newest
        · exact Nat.le_of_lt older.2
        · omega
      have recent := safe limit bound id within before
      simp only [Log.add_entries, List.length_append, List.length_singleton]
      omega
  accounted := by
    intro id retired
    exact grows.accounted (kept.accounted id retired)

end Kept

/-- What the step of a task owes to `Kept`. -/
def OwesAccount (world : World) (state : State) : Command → Prop
  | .xadd _ maxlen => ∀ limit, maxlen = some limit → SafeToTrim state limit
  | .xack id => Accounted world state id
  | _ => True

theorem exec_kept {world : World} {state after : State} {task : Tid}
    {command : Command} {choice : Choice}
    {reply : Except PyException command.Reply}
    (kept : Kept world state) (counted : Counted state)
    (owes : OwesAccount world state command)
    (taken : exec world state task command choice = some (reply, after)) :
    Kept world after := by
  have grows := exec_grows taken
  by_cases redis : command.isRedis = false
  · have same := redis_of_not_isRedis redis taken
    exact kept.of_stream_group_eq grows (by rw [same]) (by rw [same])
  · cases command with
    | xgroupCreate =>
        rcases exec_xgroupCreate taken with same | ⟨none, created⟩
        · rw [same]
          exact kept
        · rw [created]
          exact kept.create none
    | xadd fields maxlen =>
        rcases exec_xadd taken with ⟨same, _⟩ | ⟨stream, appended, reached, _⟩
        · rw [same]
          exact kept
        · rw [reached] at grows ⊢
          exact kept.appended owes appended grows
    | xreadgroup count =>
        rcases exec_xreadgroup taken with
          ⟨same, _⟩ | ⟨group, found, reached, _⟩
        · rw [same]
          exact kept
        · rw [reached]
          exact kept.read found _
    | xautoclaim minIdleTime startId count =>
        rcases exec_xautoclaim taken with
          ⟨same, _⟩ | ⟨group, found, reached, _⟩
        · rw [same]
          exact kept
        · rw [reached]
          exact kept.claim counted found _ _ _
    | xpendingRange msgId =>
        rw [(exec_xpendingRange taken).1]
        exact kept
    | xack msgId =>
        rcases settle_state taken with same | reached
        · rw [same]
          exact kept
        · rw [reached]
          exact kept.acked owes
    | xaddDlq origin fields =>
        rcases settle_state taken with same | reached
        · rw [same]
          exact kept
        · rw [reached] at grows ⊢
          exact kept.of_stream_group_eq grows rfl rfl
    | _ => exact absurd rfl redis

theorem happen_kept {world : World} {event : Event} {state after : State}
    {tasks tasksAfter : AppTasks} (kept : Kept world state)
    (happened :
      happen world event state tasks = some (after, tasksAfter)) :
    Kept world after := by
  have grows := happen_grows happened
  cases event with
  | ask number request =>
      simp only [happen] at happened
      split at happened
      · cases happened
        exact kept
      · cases happened
  | hangUp number =>
      cases happened
      exact kept
  | startWorker name =>
      simp only [happen] at happened
      split at happened
      · cases happened
        exact kept.of_stream_group_eq grows rfl rfl
      · cases happened
  | kill name =>
      cases happened
      exact kept.of_stream_group_eq grows rfl rfl
  | tick milliseconds =>
      cases happened
      exact kept.of_stream_group_eq grows rfl rfl
  | inject fields =>
      cases happened
      exact {
        live := by
          intro id below unfinished
          have length : id < state.redis.stream.entries.length + 1 := by
            simpa using below
          rw [Log.live_add_iff]
          rcases Nat.lt_succ_iff_lt_or_eq.mp length with older | newest
          · exact Or.inl (kept.live id older unfinished)
          · exact Or.inr newest
        accounted := fun id retired =>
          grows.accounted (kept.accounted id retired) }

end TxnEvents
