import TxnEvents.System.Frames

/-!
# Delivery counts

The history counts the deliveries of a message to any task.  In every
reachable state the counter that Redis keeps for a pending message is this
number, and a message that was not handed out yet has none.
-/

namespace TxnEvents

open Effects Streams

def Happening.isDelivery (id : MsgId) : Happening → Bool
  | delivered _ msgId => msgId = id
  | _ => false

/-- How often the group has delivered the message so far. -/
def deliveries (history : History) (id : MsgId) : Nat :=
  history.countP (Happening.isDelivery id)

@[simp]
theorem deliveries_cons_noted (task : Tid) (note : Note)
    (history : History) (id : MsgId) :
    deliveries (.noted task note :: history) id = deliveries history id := by
  simp [deliveries, Happening.isDelivery]

@[simp]
theorem deliveries_cons_rateAnswered (task : Tid) (currency : String)
    (rate : Arith.Decimal) (history : History) (id : MsgId) :
    deliveries (.rateAnswered task currency rate :: history) id =
      deliveries history id := by
  simp [deliveries, Happening.isDelivery]

@[simp]
theorem deliveries_cons_killed (name : Nat) (history : History)
    (id : MsgId) :
    deliveries (.killed name :: history) id = deliveries history id := by
  simp [deliveries, Happening.isDelivery]

theorem deliveries_deliver (state : State) (task : Tid)
    (ids : List MsgId) (id : MsgId) :
    deliveries (state.deliver task ids).history id =
      deliveries state.history id + ids.count id := by
  have counted :
      ((ids.map (Happening.delivered task)).reverse).countP
          (Happening.isDelivery id) = ids.count id := by
    rw [List.countP_reverse, List.countP_map, List.count_eq_countP]
    congr 1
  simp only [deliveries, State.deliver, List.countP_append, counted]
  omega

theorem deliveries_handOut {state : State} {task : Tid} {group : Group}
    {ids : List MsgId} (nodup : ids.Nodup) (id : MsgId) :
    deliveries (state.handOut task group ids).history id =
      deliveries state.history id + if id ∈ ids then 1 else 0 := by
  rw [State.handOut, deliveries_deliver, nodup.count]

theorem deliveries_le_of_suffix {older newer : History}
    (suffix : older <:+ newer) (id : MsgId) :
    deliveries older id ≤ deliveries newer id :=
  suffix.sublist.countP_le

theorem deliveries_pos_of_mem {history : History} {task : Tid} {id : MsgId}
    (member : .delivered task id ∈ history) :
    1 ≤ deliveries history id := by
  refine List.countP_pos_iff.mpr ⟨_, member, ?_⟩
  simp [Happening.isDelivery]

/-- Redis's counters agree with the history. -/
structure Counted (state : State) : Prop where
  bounded : ∀ group, state.redis.group = some group →
    group.lastDelivered ≤ state.redis.stream.entries.length
  fresh : ∀ id, ¬ state.HandedOut id → deliveries state.history id = 0
  exact : ∀ group, state.redis.group = some group →
    ∀ entry ∈ group.pending,
      entry.timesDelivered = deliveries state.history entry.id

namespace Counted

/-- A step that leaves the group and the counts alone. -/
theorem of_group_eq {before after : State} (counted : Counted before)
    (group : after.redis.group = before.redis.group)
    (longer : before.redis.stream.entries <+: after.redis.stream.entries)
    (counts : ∀ id, deliveries after.history id = deliveries before.history id) :
    Counted after where
  bounded := by
    intro current found
    rw [group] at found
    exact Nat.le_trans (counted.bounded current found) longer.length_le
  fresh := by
    intro id notHandedOut
    rw [counts]
    apply counted.fresh
    simpa only [State.HandedOut, group] using notHandedOut
  exact := by
    intro current found entry member
    rw [group] at found
    rw [counts]
    exact counted.exact current found entry member

theorem initial : Counted State.initial where
  bounded := by
    intro group found
    cases found
  fresh := by
    intro id _
    rfl
  exact := by
    intro group found
    cases found

theorem create {state : State} (counted : Counted state)
    (none : state.redis.group = none) :
    Counted { state with redis.group := some Group.fromStart } where
  bounded := by
    intro group found
    cases found
    exact Nat.zero_le _
  fresh := by
    intro id _
    apply counted.fresh
    rintro ⟨group, found, _⟩
    rw [none] at found
    cases found
  exact := by
    intro group found entry member
    cases found
    cases member

theorem read {state : State} {task : Tid} {group : Group}
    (counted : Counted state) (found : state.redis.group = some group)
    (limit : Option Nat) :
    Counted
      (state.handOut task
        (group.read state.redis.stream limit state.redis.now)
        (group.unread state.redis.stream limit)) where
  bounded := by
    intro current same
    cases same
    exact Group.lastDelivered_read_le_length (counted.bounded group found)
  fresh := by
    intro id notHandedOut
    have notRead : ¬ id <
        (group.read state.redis.stream limit state.redis.now).lastDelivered :=
      fun below => notHandedOut ⟨_, rfl, below⟩
    have before : ¬ state.HandedOut id := by
      rintro ⟨current, same, below⟩
      rw [found] at same
      cases same
      exact notRead (Nat.lt_of_lt_of_le below
        (Group.lastDelivered_le_read _ _ _ _))
    have absent : id ∉ group.unread state.redis.stream limit := by
      intro member
      have pending :=
        (Group.pending_read_iff group state.redis.stream limit
          state.redis.now id).mpr (Or.inr member)
      exact notRead pending.lt_lastDelivered
    rw [deliveries_handOut (Group.unread_nodup _ _ _), if_neg absent,
      counted.fresh id before]
  exact := by
    intro current same entry member
    cases same
    rw [deliveries_handOut (Group.unread_nodup _ _ _)]
    rcases (Group.mem_read_pending _ _ _ _ _).mp member with
      old | ⟨id, fresh, rfl⟩
    · have below := group.handedOut entry old
      have absent : entry.id ∉ group.unread state.redis.stream limit := by
        intro member
        have bound := (Group.mem_unread member).1
        omega
      rw [if_neg absent, Nat.add_zero]
      exact counted.exact group found entry old
    · have notHandedOut : ¬ state.HandedOut id := by
        rintro ⟨current, same, below⟩
        rw [found] at same
        cases same
        have bound := (Group.mem_unread fresh).1
        omega
      rw [if_pos fresh, counted.fresh id notHandedOut]

theorem claim {state : State} {task : Tid} {group : Group}
    (counted : Counted state) (found : state.redis.group = some group)
    (minIdle startId count : Nat) :
    Counted
      (state.handOut task
        (group.claim state.redis.stream state.redis.now minIdle startId count)
        (group.claimScan state.redis.stream state.redis.now minIdle startId
          count).claimed) where
  bounded := by
    intro current same
    cases same
    exact counted.bounded group found
  fresh := by
    intro id notHandedOut
    have before : ¬ state.HandedOut id := by
      rintro ⟨current, same, below⟩
      rw [found] at same
      cases same
      exact notHandedOut ⟨_, rfl, below⟩
    have absent : id ∉ (group.claimScan state.redis.stream state.redis.now
        minIdle startId count).claimed := by
      intro member
      exact before ⟨group, found,
        (Group.pending_of_claimed member).lt_lastDelivered⟩
    rw [deliveries_handOut Group.claimed_nodup, if_neg absent,
      counted.fresh id before]
  exact := by
    intro current same entry member
    cases same
    rw [deliveries_handOut Group.claimed_nodup]
    obtain ⟨old, oldMember, ⟨claimed, rfl⟩ | ⟨untouched, rfl⟩⟩ :=
      Group.mem_claim_pending member
    · rw [if_pos claimed]
      have before := counted.exact group found old oldMember
      simp only [PendingEntry.redelivered]
      omega
    · rw [if_neg untouched, Nat.add_zero]
      exact counted.exact group found entry oldMember

theorem acked {state : State} (counted : Counted state) (id : MsgId) :
    Counted
      { state with redis.group := state.redis.group.map (·.ack id) } where
  bounded := by
    intro current found
    obtain ⟨group, old, rfl⟩ := Option.map_eq_some_iff.mp found
    exact counted.bounded group old
  fresh := by
    intro other notHandedOut
    apply counted.fresh
    rintro ⟨group, old, below⟩
    exact notHandedOut ⟨group.ack id, by simp [old], below⟩
  exact := by
    intro current found entry member
    obtain ⟨group, old, rfl⟩ := Option.map_eq_some_iff.mp found
    have kept := ((Group.mem_ack_pending _ _ _).mp member).1
    exact counted.exact group old entry kept

end Counted

/-- A step that delivers nothing leaves every count alone. -/
theorem deliveries_exec_eq {world : World} {state after : State} {task : Tid}
    {command : Command} {choice : Choice}
    {reply : Except PyException command.Reply}
    (other : command.delivers = false)
    (taken : exec world state task command choice = some (reply, after))
    (id : MsgId) :
    deliveries after.history id = deliveries state.history id := by
  rcases history_cases other taken with
    same | ⟨currency, rate, _, _, answered⟩ | ⟨note, _, noted⟩
  · rw [same]
  · rw [answered, deliveries_cons_rateAnswered]
  · rw [noted, deliveries_cons_noted]

theorem exec_counted {world : World} {state after : State} {task : Tid}
    {command : Command} {choice : Choice}
    {reply : Except PyException command.Reply}
    (counted : Counted state)
    (taken : exec world state task command choice = some (reply, after)) :
    Counted after := by
  have longer := (exec_grows taken).entries
  by_cases redis : command.isRedis = false
  · have same := redis_of_not_isRedis redis taken
    have quiet : command.delivers = false := by
      cases command <;> first | rfl | cases redis
    exact counted.of_group_eq (by rw [same]) longer
      (deliveries_exec_eq quiet taken)
  · cases command with
    | xgroupCreate =>
        rcases exec_xgroupCreate taken with same | ⟨none, created⟩
        · rw [same]
          exact counted
        · rw [created]
          exact counted.create none
    | xadd fields maxlen =>
        rcases exec_xadd taken with ⟨same, _⟩ | ⟨stream, _, reached, _⟩
        · rw [same]
          exact counted
        · exact counted.of_group_eq (by rw [reached]) longer
            (deliveries_exec_eq rfl taken)
    | xreadgroup count =>
        rcases exec_xreadgroup taken with
          ⟨same, _⟩ | ⟨group, found, reached, _⟩
        · rw [same]
          exact counted
        · rw [reached]
          exact counted.read found _
    | xautoclaim minIdleTime startId count =>
        rcases exec_xautoclaim taken with
          ⟨same, _⟩ | ⟨group, found, reached, _⟩
        · rw [same]
          exact counted
        · rw [reached]
          exact counted.claim found _ _ _
    | xpendingRange msgId =>
        rw [(exec_xpendingRange taken).1]
        exact counted
    | xack msgId =>
        rcases settle_state taken with same | reached
        · rw [same]
          exact counted
        · rw [reached]
          exact counted.acked msgId
    | xaddDlq origin fields =>
        rcases settle_state taken with same | reached
        · rw [same]
          exact counted
        · rw [reached]
          exact counted.of_group_eq rfl (List.prefix_refl _) fun _ => rfl
    | _ => exact absurd rfl redis

theorem happen_counted {world : World} {event : Event} {state after : State}
    {tasks tasksAfter : AppTasks} (counted : Counted state)
    (happened :
      happen world event state tasks = some (after, tasksAfter)) :
    Counted after := by
  cases event with
  | ask number request =>
      simp only [happen] at happened
      split at happened
      · cases happened
        exact counted
      · cases happened
  | hangUp number =>
      cases happened
      exact counted
  | startWorker name =>
      simp only [happen] at happened
      split at happened
      · cases happened
        exact counted.of_group_eq rfl (List.prefix_refl _) fun _ => rfl
      · cases happened
  | kill name =>
      cases happened
      exact counted.of_group_eq rfl (List.prefix_refl _)
        (deliveries_cons_killed name state.history)
  | tick milliseconds =>
      cases happened
      exact counted.of_group_eq rfl (List.prefix_refl _) fun _ => rfl
  | inject fields =>
      cases happened
      exact counted.of_group_eq rfl (List.prefix_append _ _) fun _ => rfl

/-- What has grown has grown along every run. -/
theorem reachable_grows {world : World} {permit : AppPermit}
    {first second : AppConfig}
    (later : (system world).Reachable permit first second) :
    Grows first.shared second.shared := by
  let grown (state : State) : Prop := Grows first.shared state
  have begins : grown first.shared := Grows.refl first.shared
  change grown second.shared
  apply System.Reachable.invariant_shared begins _ _ later
  · intro state task command choice reply after grows _ taken
    exact Grows.trans grows (exec_grows taken)
  · intro state event tasks after tasksAfter grows _ happened
    exact Grows.trans grows (happen_grows happened)

theorem reaches_counted {world : World} {permit : AppPermit}
    {config : AppConfig} (reaches : Reaches world permit config) :
    Counted config.shared := by
  apply System.Reachable.invariant_shared Counted.initial _ _ reaches
  · intro state task command choice reply after counted _ taken
    exact exec_counted counted taken
  · intro state event tasks after tasksAfter counted _ happened
    exact happen_counted counted happened

end TxnEvents
