import TxnEvents.System.Runs

/-!
# What a step keeps

Streams, the dead-letter stream, the table and the history only grow, and a
message that was handed out and acknowledged stays so.
-/

namespace TxnEvents

open Effects Arith Python Streams

/-! ## What a state says about a message -/

namespace State

/-- The group has been handed the message, or has passed it over. -/
def HandedOut (state : State) (id : Nat) : Prop :=
  ∃ group, state.redis.group = some group ∧ id < group.lastDelivered

/-- The message is on the pending list of the group. -/
def Pending (state : State) (id : Nat) : Prop :=
  ∃ group, state.redis.group = some group ∧ group.Pending id

/-- The group is done with the message. -/
def Retired (state : State) (id : Nat) : Prop :=
  state.HandedOut id ∧ ¬ state.Pending id

def openRow (state : State) (task : Tid) : Option Uncommitted :=
  state.db.uncommitted.find? fun entry => entry.task = task

theorem Pending.handedOut {state : State} {id : MsgId}
    (pending : state.Pending id) : state.HandedOut id := by
  obtain ⟨group, found, member⟩ := pending
  exact ⟨group, found, member.lt_lastDelivered⟩

theorem pending_of_not_retired {state : State} {id : MsgId}
    (unfinished : ¬ state.Retired id) (handedOut : state.HandedOut id) :
    state.Pending id := by
  by_contra notPending
  exact unfinished ⟨handedOut, notPending⟩

end State

namespace Happening

/-- What a task did itself. -/
def By (task : Tid) : Happening → Prop
  | delivered actor _ => actor = task
  | rateAnswered actor _ _ => actor = task
  | noted actor _ => actor = task
  | killed _ => False

/-- What a task did, and the end of its process. -/
def Concerns (task : Tid) : Happening → Prop
  | delivered actor _ => actor = task
  | rateAnswered actor _ _ => actor = task
  | noted actor _ => actor = task
  | killed name => task.process = .worker name

theorem not_concerns_of_by {actor task : Tid} {happening : Happening}
    (made : happening.By actor) (different : task ≠ actor) :
    ¬ happening.Concerns task := by
  intro concerns
  cases happening with
  | delivered by_ msgId => exact different (concerns.symm.trans made)
  | rateAnswered by_ currency rate => exact different (concerns.symm.trans made)
  | noted by_ note => exact different (concerns.symm.trans made)
  | killed name => exact made

end Happening

/-! ## Growth -/

structure Grows (before after : State) : Prop where
  entries : before.redis.stream.entries <+: after.redis.stream.entries
  trimmed : before.redis.stream.trimmed ≤ after.redis.stream.trimmed
  deadLetters : before.redis.deadLetters <+: after.redis.deadLetters
  table : before.db.table <+: after.db.table
  handedOut : ∀ id, before.HandedOut id → after.HandedOut id
  retired : ∀ id, before.Retired id → after.Retired id
  history : before.history <:+ after.history

namespace Grows

@[simp]
theorem refl (state : State) : Grows state state where
  entries := List.prefix_refl _
  trimmed := Nat.le_refl _
  deadLetters := List.prefix_refl _
  table := List.prefix_refl _
  handedOut := fun _ handedOut => handedOut
  retired := fun _ retired => retired
  history := List.suffix_refl _

theorem trans {first second third : State}
    (early : Grows first second) (late : Grows second third) :
    Grows first third where
  entries := early.entries.trans late.entries
  trimmed := Nat.le_trans early.trimmed late.trimmed
  deadLetters := early.deadLetters.trans late.deadLetters
  table := early.table.trans late.table
  handedOut := fun id handedOut => late.handedOut id (early.handedOut id handedOut)
  retired := fun id retired => late.retired id (early.retired id retired)
  history := early.history.trans late.history

/-- A step that leaves Redis alone. -/
theorem of_redis_eq {before after : State}
    (redis : after.redis = before.redis)
    (table : before.db.table <+: after.db.table)
    (history : before.history <:+ after.history) : Grows before after where
  entries := by rw [redis]
  trimmed := by rw [redis]
  deadLetters := by rw [redis]
  table := table
  handedOut := by
    intro id handedOut
    simpa only [State.HandedOut, redis] using handedOut
  retired := by
    intro id retired
    simpa only [State.Retired, State.HandedOut, State.Pending, redis]
      using retired
  history := history

theorem deliver (state : State) (task : Tid) (ids : List MsgId) :
    Grows state (state.deliver task ids) :=
  of_redis_eq rfl (List.prefix_refl _) (List.suffix_append _ _)

theorem record (state : State) (happening : Happening) :
    Grows state (state.record happening) :=
  of_redis_eq rfl (List.prefix_refl _) (List.suffix_cons _ _)

theorem setLocal (state : State) (process : Process) (memory : LocalState) :
    Grows state (state.setLocal process memory) :=
  of_redis_eq rfl (List.prefix_refl _) (List.suffix_refl _)

theorem rollback (state : State) (task : Tid) :
    Grows state (state.rollback task) :=
  of_redis_eq rfl (List.prefix_refl _) (List.suffix_refl _)

/-- A step of the group alone. -/
theorem of_group {before after : State} {old new : Group}
    (oldGroup : before.redis.group = some old)
    (newGroup : after.redis.group = some new)
    (stream : after.redis.stream = before.redis.stream)
    (deadLetters : after.redis.deadLetters = before.redis.deadLetters)
    (db : after.db = before.db)
    (history : after.history = before.history)
    (further : old.lastDelivered ≤ new.lastDelivered)
    (done : ∀ id < old.lastDelivered, ¬ old.Pending id → ¬ new.Pending id) :
    Grows before after where
  entries := by rw [stream]
  trimmed := by rw [stream]
  deadLetters := by rw [deadLetters]
  table := by rw [db]
  handedOut := by
    rintro id ⟨group, found, below⟩
    rw [oldGroup] at found
    cases found
    exact ⟨new, newGroup, Nat.lt_of_lt_of_le below further⟩
  retired := by
    rintro id ⟨⟨group, found, below⟩, notPending⟩
    rw [oldGroup] at found
    cases found
    refine ⟨⟨new, newGroup, Nat.lt_of_lt_of_le below further⟩, ?_⟩
    rintro ⟨group, foundNew, pending⟩
    rw [newGroup] at foundNew
    cases foundNew
    have absent : ¬ old.Pending id :=
      fun present => notPending ⟨old, oldGroup, present⟩
    exact done id below absent pending
  history := by rw [history]

theorem settle {α : Type} {before : State} {effect : Effect α}
    (fate : Fate) (grows : Grows before effect.2) :
    Grows before (settle fate before effect).2 := by
  cases fate with
  | ok => exact grows
  | failedBefore raised => exact refl before
  | failedAfter raised => exact grows

end Grows

/-! ## Every command grows the state -/

theorem grows_xgroupCreate (state : State) :
    Grows state (Redis.xgroupCreate state).2 := by
  unfold Redis.xgroupCreate
  split
  case h_1 => exact Grows.refl state
  case h_2 none =>
    have nothing : ∀ id, ¬ state.HandedOut id := by
      intro id handedOut
      obtain ⟨group, found, _⟩ := handedOut
      rw [none] at found
      cases found
    exact {
      Grows.refl state with
      handedOut := fun id handedOut => absurd handedOut (nothing id)
      retired := fun id retired => absurd retired.1 (nothing id) }

theorem grows_xadd {state : State} {fields : Dict} {maxlen : Option Int}
    {trimTo : Nat} {effect : Effect MsgId}
    (taken : Redis.xadd state fields maxlen trimTo = some effect) :
    Grows state effect.2 := by
  have longer : state.redis.stream.entries <+:
      (state.redis.stream.add (encodeFields fields)).entries :=
    List.prefix_append _ _
  simp only [Redis.xadd] at taken
  split at taken
  case h_1 =>
    cases taken
    exact { Grows.refl state with entries := longer }
  case h_2 limit =>
    split at taken
    · cases taken
      exact Grows.refl state
    · split at taken
      · cases taken
        exact {
          Grows.refl state with
          entries := longer
          trimmed := Log.trimmed_le_trim (state.redis.stream.add _) trimTo }
      · cases taken

theorem grows_xreadgroup (state : State) (task : Tid) (count : Int) :
    Grows state (Redis.xreadgroup state task count).2 := by
  unfold Redis.xreadgroup
  split
  · exact Grows.refl state
  · split
    case h_1 => exact Grows.refl state
    case h_2 group found =>
      refine Grows.trans ?_ (Grows.deliver _ task _)
      refine Grows.of_group found rfl rfl rfl rfl rfl ?_ ?_
      · exact Group.lastDelivered_le_read _ _ _ _
      · intro id below notPending pending
        rcases (Group.pending_read_iff _ _ _ _ _).mp pending with
          old | fresh
        · exact notPending old
        · have bound := (Group.mem_unread fresh).1
          omega

theorem grows_xautoclaim (state : State) (task : Tid) (minIdleTime : Int)
    (startId : MsgId) (count : Int) :
    Grows state
      (Redis.xautoclaim state task minIdleTime startId count).2 := by
  unfold Redis.xautoclaim
  split
  · exact Grows.refl state
  · split
    · exact Grows.refl state
    · split
      case h_1 => exact Grows.refl state
      case h_2 group found =>
        refine Grows.trans ?_ (Grows.deliver _ task _)
        refine Grows.of_group found rfl rfl rfl rfl rfl (Nat.le_refl _) ?_
        intro id _ notPending pending
        exact notPending ((Group.pending_claim_iff id).mp pending).1

theorem grows_xpendingRange (state : State) (msgId : MsgId) :
    Grows state (Redis.xpendingRange state msgId).2 := by
  unfold Redis.xpendingRange
  split <;> exact Grows.refl state

theorem grows_xack (state : State) (msgId : MsgId) :
    Grows state (Redis.xack state msgId).2 := by
  cases found : state.redis.group with
  | none =>
      have same :
          state.redis.group.map (·.ack msgId) = state.redis.group := by
        rw [found, Option.map_none]
      simp only [Redis.xack, same]
      exact Grows.refl state
  | some group =>
      have acked :
          (Redis.xack state msgId).2.redis.group = some (group.ack msgId) := by
        simp [Redis.xack, found]
      refine Grows.of_group found acked rfl rfl rfl rfl (Nat.le_refl _) ?_
      intro id _ notPending pending
      exact notPending ((Group.pending_ack_iff _ _ _).mp pending).1

theorem grows_xaddDlq (state : State) (origin : MsgId) (fields : Dict) :
    Grows state (Redis.xaddDlq state origin fields).2 :=
  { Grows.refl state with deadLetters := List.prefix_append _ _ }

theorem grows_insert {world : World} {state : State} {task : Tid}
    {row : ProcessedTransaction} {effect : Effect Bool}
    (taken : Db.insert world state task row = some effect) :
    Grows state effect.2 := by
  unfold Db.insert at taken
  split at taken
  · cases taken
    exact Grows.rollback state task
  · split at taken
    · cases taken
      exact Grows.rollback state task
    · split at taken
      · cases taken
      · cases taken
        exact Grows.of_redis_eq rfl (List.prefix_refl _) (List.suffix_refl _)

theorem grows_execute {world : World} {state : State} {task : Tid}
    {row : ProcessedTransaction} {fate : Fate} {effect : Effect Bool}
    (taken : Db.execute world state task row fate = some effect) :
    Grows state effect.2 := by
  cases fate with
  | ok => exact grows_insert taken
  | failedBefore raised =>
      cases taken
      exact Grows.rollback state task
  | failedAfter raised =>
      cases taken
      exact Grows.rollback state task

theorem grows_committed (state : State) (task : Tid) :
    Grows state (Db.committed state task) := by
  unfold Db.committed
  split
  · exact Grows.refl state
  · exact Grows.of_redis_eq rfl (List.prefix_append _ _) (List.suffix_refl _)

theorem grows_acknowledged (state : State) (task : Tid) :
    Grows state (Db.acknowledged state task) := by
  have committed := grows_committed state task
  unfold Db.acknowledged
  split
  · exact Grows.refl state
  · refine committed.trans ?_
    exact Grows.of_redis_eq rfl (List.prefix_refl _) (List.suffix_refl _)

theorem grows_commit (state : State) (task : Tid) (fate : Fate) :
    Grows state (Db.commit state task fate).2 := by
  cases fate with
  | ok => exact grows_acknowledged state task
  | failedBefore raised => exact Grows.rollback state task
  | failedAfter raised => exact grows_committed state task

theorem grows_httpGet (state : State) (task : Tid) (currency : String)
    (outcome : HttpOutcome) :
    Grows state (httpGet state task currency outcome).2 := by
  cases answered : outcome.rate? with
  | none =>
      simp only [httpGet, answered]
      exact Grows.refl state
  | some rate =>
      simp only [httpGet, answered]
      exact Grows.record state _

theorem grows_observe (state : State) (task : Tid) (note : Note) :
    Grows state (observe state task note) := by
  have suffix :
      state.history <:+ Happening.noted task note :: state.history :=
    List.suffix_cons _ _
  unfold observe
  split
  · exact Grows.of_redis_eq rfl (List.prefix_refl _) suffix
  · exact Grows.of_redis_eq rfl (List.prefix_refl _) suffix

theorem snd_of_some {α : Type} {effect : Effect α}
    {reply : Except PyException α} {after : State}
    (taken : some effect = some (reply, after)) : effect.2 = after := by
  cases taken
  rfl

theorem exec_grows {world : World} {state after : State} {task : Tid}
    {command : Command} {choice : Choice}
    {reply : Except PyException command.Reply}
    (taken : exec world state task command choice = some (reply, after)) :
    Grows state after := by
  cases command with
  | xgroupCreate =>
      rw [← snd_of_some taken]
      exact Grows.settle choice.fate (grows_xgroupCreate state)
  | xadd fields maxlen =>
      obtain ⟨effect, added, equality⟩ := Option.map_eq_some_iff.mp taken
      have grows := Grows.settle choice.fate (grows_xadd added)
      rwa [equality] at grows
  | xreadgroup count =>
      rw [← snd_of_some taken]
      exact Grows.settle choice.fate (grows_xreadgroup state task count)
  | xautoclaim minIdleTime startId count =>
      rw [← snd_of_some taken]
      exact Grows.settle choice.fate
        (grows_xautoclaim state task minIdleTime startId count)
  | xpendingRange msgId =>
      rw [← snd_of_some taken]
      exact Grows.settle choice.fate (grows_xpendingRange state msgId)
  | xack msgId =>
      rw [← snd_of_some taken]
      exact Grows.settle choice.fate (grows_xack state msgId)
  | xaddDlq origin fields =>
      rw [← snd_of_some taken]
      exact Grows.settle choice.fate (grows_xaddDlq state origin fields)
  | httpGet currency =>
      rw [← snd_of_some taken]
      exact grows_httpGet state task currency choice.http
  | execute row => exact grows_execute taken
  | commit =>
      rw [← snd_of_some taken]
      exact grows_commit state task choice.fate
  | monotonic =>
      simp only [exec, monotonic] at taken
      split at taken
      · cases taken
      · cases taken
        exact Grows.setLocal state _ _
  | observe note =>
      cases taken
      exact grows_observe state task note
  | select =>
      rw [← snd_of_some taken]
      exact Grows.settle choice.fate (Grows.refl state)
  | probe =>
      rw [← snd_of_some taken]
      exact Grows.settle choice.fate (Grows.refl state)
  | cacheGet currency =>
      cases taken
      exact Grows.refl state
  | cacheSet currency rate expiresAt =>
      cases taken
      exact Grows.setLocal state _ _
  | utcNow =>
      cases taken
      exact Grows.refl state
  | random =>
      cases taken
      exact Grows.refl state
  | sleep delay =>
      cases taken
      exact Grows.refl state
  | inc counter =>
      cases taken
      exact Grows.setLocal state _ _

/-! ## What a step records -/

/-- The step adds happenings of the actor to the history and nothing else. -/
def Records (actor : Tid) (before after : State) : Prop :=
  ∃ newer, after.history = newer ++ before.history ∧
    ∀ happening ∈ newer, happening.By actor

theorem history_observe (state : State) (task : Tid) (note : Note) :
    (observe state task note).history = .noted task note :: state.history := by
  unfold observe
  split
  · rfl
  · rfl

theorem history_committed (state : State) (task : Tid) :
    (Db.committed state task).history = state.history := by
  unfold Db.committed
  split
  · rfl
  · rfl

theorem history_acknowledged (state : State) (task : Tid) :
    (Db.acknowledged state task).history = state.history := by
  unfold Db.acknowledged
  split
  · rfl
  · exact history_committed state task

end TxnEvents
