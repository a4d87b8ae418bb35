import TxnEvents.System.Growth

/-!
# The outcomes of a command, one by one

For every command, what can be read off a step that executed it: the reply,
and the state it leaves.  What a command leaves alone (`exec_spares`) and what
it writes to the history (`exec_recorded`) follow once for all commands.
-/

namespace TxnEvents

open Effects Arith Python Streams

section Settle

variable {α : Type} {before after : State} {effect : Effect α}
  {reply : Except PyException α} {fate : Fate}

/-- Either the effect and its reply, or a failure before or after it. -/
theorem settle_cases
    (taken : some (settle fate before effect) = some (reply, after)) :
    (reply = effect.1 ∧ after = effect.2) ∨
      ∃ raised : ForeignException, reply = .error raised.exception ∧
        (after = before ∨ after = effect.2) := by
  cases fate with
  | ok =>
      cases taken
      exact Or.inl ⟨rfl, rfl⟩
  | failedBefore raised =>
      cases taken
      exact Or.inr ⟨raised, rfl, Or.inl rfl⟩
  | failedAfter raised =>
      cases taken
      exact Or.inr ⟨raised, rfl, Or.inr rfl⟩

theorem settle_state
    (taken : some (settle fate before effect) = some (reply, after)) :
    after = before ∨ after = effect.2 := by
  rcases settle_cases taken with ⟨_, same⟩ | ⟨_, _, either⟩
  · exact Or.inr same
  · exact either

theorem settle_ok {value : α}
    (taken : some (settle fate before effect) = some (.ok value, after)) :
    effect.1 = .ok value ∧ after = effect.2 := by
  rcases settle_cases taken with ⟨same, state⟩ | ⟨raised, failed, _⟩
  · exact ⟨same.symm, state⟩
  · cases failed

theorem settle_of_ok
    (taken : some (settle .ok before effect) = some (reply, after)) :
    reply = effect.1 ∧ after = effect.2 := by
  cases taken
  exact ⟨rfl, rfl⟩

/-- A command that is refused leaves the state as it is. -/
theorem refused {error : PyException}
    (outcome : (reply = .error error ∧ after = before) ∨
      ∃ raised : ForeignException, reply = .error raised.exception ∧
        (after = before ∨ after = before)) :
    after = before ∧ ∃ error, reply = .error error := by
  rcases outcome with ⟨failed, same⟩ | ⟨raised, failed, either⟩
  · exact ⟨same, _, failed⟩
  · exact ⟨either.elim id id, _, failed⟩

theorem elim_error_eq_ok {β : Type} {found : Option β} {error : PyException}
    {next : β → Except PyException α} {value : α}
    (replied : found.elim (.error error) next = .ok value) :
    ∃ inner, found = some inner ∧ next inner = .ok value := by
  cases found with
  | none => cases replied
  | some inner => exact ⟨inner, rfl, replied⟩

/-- Either nothing happened, or the effect did and its reply was decoded. -/
theorem decoded_of_outcome {β : Type} {decoded : Option β}
    {error : PyException} {next : β → α} {reached : State}
    (outcome :
      (reply = decoded.elim (.error error) (fun inner => .ok (next inner)) ∧
          after = reached) ∨
        ∃ raised : ForeignException, reply = .error raised.exception ∧
          (after = before ∨ after = reached)) :
    (after = before ∧ ∃ error, reply = .error error) ∨
      after = reached ∧ ∀ value, reply = .ok value →
        ∃ inner, decoded = some inner ∧ next inner = value := by
  rcases outcome with ⟨answered, same⟩ | ⟨raised, failed, same | same⟩
  · refine Or.inr ⟨same, ?_⟩
    intro value replied
    rw [answered] at replied
    obtain ⟨inner, found, equality⟩ := elim_error_eq_ok replied
    cases equality
    exact ⟨inner, found, rfl⟩
  · exact Or.inl ⟨same, _, failed⟩
  · refine Or.inr ⟨same, ?_⟩
    intro value replied
    rw [failed] at replied
    cases replied

theorem none_of_elim_eq_error {β : Type} {found : Option β}
    {error raised : PyException} {next : β → α}
    (failed :
      (found.elim (.error error) fun inner => .ok (next inner) :
        Except PyException α) = .error raised) :
    found = none := by
  cases found with
  | none => rfl
  | some inner => cases failed

theorem eq_of_elim_eq_error {β : Type} {found : Option β}
    {error raised : PyException} {next : β → α}
    (failed :
      (found.elim (.error error) fun inner => .ok (next inner) :
        Except PyException α) = .error raised) :
    raised = error := by
  rw [none_of_elim_eq_error failed] at failed
  cases failed
  rfl

end Settle

section Exec

variable {world : World} {state after : State} {task : Tid}
  {choice : Choice}

/-! ## Redis -/

theorem exec_xreadgroup {count : Int}
    {reply : Except PyException (List (MsgId × Dict))}
    (taken :
      exec world state task (.xreadgroup count) choice =
        some (reply, after)) :
    (after = state ∧ ∃ error, reply = .error error) ∨
      ∃ group, state.redis.group = some group ∧
        after =
          state.handOut task
            (group.read state.redis.stream (some count.toNat)
              state.redis.now)
            (group.unread state.redis.stream (some count.toNat)) ∧
        ∀ entries, reply = .ok entries →
          state.decodeEntries
              (group.unread state.redis.stream (some count.toNat)) =
            some entries := by
  have outcome := settle_cases taken
  simp only [Redis.xreadgroup] at outcome
  split at outcome
  case isTrue low => exact Or.inl (refused outcome)
  case isFalse positive =>
    split at outcome
    case h_1 none => exact Or.inl (refused outcome)
    case h_2 group found =>
      rcases decoded_of_outcome outcome with unchanged | ⟨same, decodes⟩
      · exact Or.inl unchanged
      · refine Or.inr ⟨group, found, same, ?_⟩
        intro entries replied
        rcases decodes entries replied with ⟨_, decoded, rfl⟩
        exact decoded

theorem exec_xautoclaim {minIdleTime : Int} {startId : MsgId} {count : Int}
    {reply : Except PyException ClaimReply}
    (taken :
      exec world state task (.xautoclaim minIdleTime startId count) choice =
        some (reply, after)) :
    (after = state ∧ ∃ error, reply = .error error) ∨
      ∃ group, state.redis.group = some group ∧
        after =
          state.handOut task
            (group.claim state.redis.stream state.redis.now
              minIdleTime.toNat startId count.toNat)
            (group.claimScan state.redis.stream state.redis.now
              minIdleTime.toNat startId count.toNat).claimed ∧
        ∀ answer, reply = .ok answer →
          state.decodeEntries
              (group.claimScan state.redis.stream state.redis.now
                minIdleTime.toNat startId count.toNat).claimed =
            some answer.claimed := by
  have outcome := settle_cases taken
  simp only [Redis.xautoclaim] at outcome
  split at outcome
  case isTrue negative => exact Or.inl (refused outcome)
  case isFalse nonnegative =>
    split at outcome
    case isTrue low => exact Or.inl (refused outcome)
    case isFalse positive =>
      split at outcome
      case h_1 none => exact Or.inl (refused outcome)
      case h_2 group found =>
        rcases decoded_of_outcome outcome with unchanged | ⟨same, decodes⟩
        · exact Or.inl unchanged
        · refine Or.inr ⟨group, found, same, ?_⟩
          intro answer replied
          rcases decodes answer replied with ⟨_, decoded, rfl⟩
          exact decoded

theorem exec_xpendingRange {msgId : MsgId}
    {reply : Except PyException (List Nat)}
    (taken :
      exec world state task (.xpendingRange msgId) choice =
        some (reply, after)) :
    after = state ∧
      ∀ counts, reply = .ok counts →
        ∃ group, state.redis.group = some group ∧
          counts = (group.timesDelivered? msgId).toList := by
  have outcome := settle_cases taken
  simp only [Redis.xpendingRange] at outcome
  split at outcome
  case h_1 none =>
    obtain ⟨same, error, failed⟩ := refused outcome
    refine ⟨same, ?_⟩
    intro counts replied
    rw [failed] at replied
    cases replied
  case h_2 group found =>
    rcases outcome with ⟨answered, same⟩ | ⟨raised, failed, either⟩
    · refine ⟨same, ?_⟩
      intro counts replied
      rw [answered] at replied
      cases replied
      exact ⟨group, found, rfl⟩
    · refine ⟨either.elim id id, ?_⟩
      intro counts replied
      rw [failed] at replied
      cases replied

/-- The stream after an entry was added and some of the oldest ones, as the
bound allows, were dropped. -/
def Appended (before after : Log WireFields) (fields : Dict) (maxlen : Option Int) :
    Prop :=
  (maxlen = none ∧ after = before.add (encodeFields fields)) ∨
    ∃ limit : Nat, ∃ trimTo, maxlen = some (limit : Int) ∧
      (before.add (encodeFields fields)).MayTrim limit trimTo ∧
        after = (before.add (encodeFields fields)).trim trimTo

theorem exec_xadd {fields : Dict} {maxlen : Option Int}
    {reply : Except PyException MsgId}
    (taken :
      exec world state task (.xadd fields maxlen) choice =
        some (reply, after)) :
    (after = state ∧ ∃ error, reply = .error error) ∨
      ∃ stream, Appended state.redis.stream stream fields maxlen ∧
        after = { state with redis.stream := stream } ∧
        ∀ id, reply = .ok id → id = state.redis.stream.entries.length := by
  obtain ⟨effect, added, equality⟩ := Option.map_eq_some_iff.mp taken
  have outcome := settle_cases (congrArg some equality)
  have answered : ∀ {stream : Log WireFields},
      Appended state.redis.stream stream fields maxlen →
      effect =
        (.ok state.redis.stream.entries.length,
          { state with redis.stream := stream }) →
      (after = state ∧ ∃ error, reply = .error error) ∨
        ∃ stream, Appended state.redis.stream stream fields maxlen ∧
          after = { state with redis.stream := stream } ∧
          ∀ id, reply = .ok id →
            id = state.redis.stream.entries.length := by
    intro stream appended same
    rcases outcome with ⟨replied, reached⟩ | ⟨raised, failed, reached | reached⟩
    · right
      refine ⟨stream, appended, by rw [reached, same], ?_⟩
      intro id done
      rw [replied, same] at done
      cases done
      rfl
    · exact Or.inl ⟨reached, _, failed⟩
    · right
      refine ⟨stream, appended, by rw [reached, same], ?_⟩
      intro id done
      rw [failed] at done
      cases done
  simp only [Redis.xadd] at added
  split at added
  case h_1 =>
    cases added
    exact answered (Or.inl ⟨rfl, rfl⟩) rfl
  case h_2 limit =>
    split at added
    case isTrue negative =>
      cases added
      exact Or.inl (refused outcome)
    case isFalse nonnegative =>
      split at added
      case isTrue legal =>
        cases added
        have natural : ((limit.toNat : Nat) : Int) = limit := by omega
        refine answered (Or.inr ⟨limit.toNat, choice.trimTo, ?_, legal, rfl⟩) rfl
        rw [natural]
      case isFalse illegal => cases added

theorem exec_xgroupCreate {reply : Except PyException Unit}
    (taken :
      exec world state task .xgroupCreate choice = some (reply, after)) :
    after = state ∨
      state.redis.group = none ∧
        after = { state with redis.group := some Group.fromStart } := by
  have reached := settle_state taken
  unfold Redis.xgroupCreate at reached
  split at reached
  case h_1 => exact Or.inl (reached.elim id id)
  case h_2 none =>
    rcases reached with same | created
    · exact Or.inl same
    · exact Or.inr ⟨none, created⟩

/-! ## The database -/

theorem exec_execute {row : ProcessedTransaction}
    {reply : Except PyException Bool}
    (taken :
      exec world state task (.execute row) choice = some (reply, after)) :
    (reply = .ok true ∧ ∃ stored,
        row.toColumns (world.localZone task.process) = .ok stored ∧
        stored.id ∉ state.db.table.map StoredTransaction.id ∧
        (∀ other ∈ state.db.uncommitted,
          other.task ≠ task → other.row.id ≠ stored.id) ∧
        after =
          { state with
            db.uncommitted :=
              ⟨task, stored⟩ :: (state.rollback task).db.uncommitted }) ∨
      (reply = .ok false ∧ ∃ stored,
        row.toColumns (world.localZone task.process) = .ok stored ∧
        stored.id ∈ state.db.table.map StoredTransaction.id ∧
        after = state.rollback task) ∨
      (∃ error, reply = .error error) ∧ after = state.rollback task := by
  cases fated : choice.fate with
  | failedBefore raised =>
      simp only [exec, fated] at taken
      cases taken
      exact Or.inr (Or.inr ⟨⟨_, rfl⟩, rfl⟩)
  | failedAfter raised =>
      simp only [exec, fated] at taken
      cases taken
      exact Or.inr (Or.inr ⟨⟨_, rfl⟩, rfl⟩)
  | ok =>
      simp only [exec, fated, Db.execute, Db.insert] at taken
      split at taken
      case h_1 sqlstate rejected =>
        cases taken
        exact Or.inr (Or.inr ⟨⟨_, rfl⟩, rfl⟩)
      case h_2 stored accepted =>
        split at taken
        case isTrue present =>
          cases taken
          exact Or.inr (Or.inl ⟨rfl, stored, accepted, present, rfl⟩)
        case isFalse absent =>
          split at taken
          case isTrue blocked => cases taken
          case isFalse free =>
            cases taken
            refine Or.inl ⟨rfl, stored, accepted, absent, ?_, rfl⟩
            intro other member elsewhere same
            exact free ⟨other, member, elsewhere, same⟩

theorem exec_commit {reply : Except PyException Unit}
    (taken : exec world state task .commit choice = some (reply, after)) :
    (reply = .ok () ∧ after = Db.acknowledged state task) ∨
      (∃ error, reply = .error error) ∧
        (after = state.rollback task ∨ after = Db.committed state task) := by
  cases fated : choice.fate with
  | ok =>
      simp only [exec, fated, Db.commit] at taken
      cases taken
      exact Or.inl ⟨rfl, rfl⟩
  | failedBefore raised =>
      simp only [exec, fated, Db.commit] at taken
      cases taken
      exact Or.inr ⟨⟨_, rfl⟩, Or.inl rfl⟩
  | failedAfter raised =>
      simp only [exec, fated, Db.commit] at taken
      cases taken
      exact Or.inr ⟨⟨_, rfl⟩, Or.inr rfl⟩

/-- An open transaction's row becomes the newest row of the table. -/
theorem committed_of_openRow {entry : Uncommitted}
    (found : state.openRow task = some entry) :
    Db.committed state task =
      { state.rollback task with
        db.table := state.db.table ++ [entry.row] } := by
  rw [State.openRow] at found
  rw [Db.committed, found]

theorem acknowledged_of_openRow {entry : Uncommitted}
    (found : state.openRow task = some entry) :
    Db.acknowledged state task =
      { state.rollback task with
        db.table := state.db.table ++ [entry.row]
        db.receipts := ⟨task, entry.row.id⟩ :: state.db.receipts } := by
  have committed := committed_of_openRow found
  rw [State.openRow] at found
  rw [Db.acknowledged, found]
  simp only [committed]

theorem committed_of_no_openRow (none : state.openRow task = none) :
    Db.committed state task = state := by
  rw [State.openRow] at none
  rw [Db.committed, none]

theorem acknowledged_of_no_openRow (none : state.openRow task = none) :
    Db.acknowledged state task = state := by
  rw [State.openRow] at none
  rw [Db.acknowledged, none]

/-! ## What the other commands leave alone -/

/-- The commands that may change the database. -/
def Command.isDb : Command → Bool
  | execute _ => true
  | commit => true
  | observe _ => true
  | _ => false

/-- The commands that write to the memory of the process. -/
def Command.isLocal : Command → Bool
  | cacheSet _ _ _ => true
  | monotonic => true
  | inc _ => true
  | _ => false

/-- What a command of another kind would change is as it was. -/
structure Command.Spares
    (command : Command)
    (before after : State) : Prop where
  redis : command.isRedis = false → after.redis = before.redis
  db : command.isDb = false → after.db = before.db
  memory : command.isLocal = false → after.memory = before.memory

namespace Command.Spares

variable {command : Command} {before : State}

theorem refl (command : Command) (state : State) :
    command.Spares state state :=
  ⟨fun _ => rfl, fun _ => rfl, fun _ => rfl⟩

theorem of_isRedis
    (redis : command.isRedis = true)
    (db : after.db = before.db)
    (memory : after.memory = before.memory) : command.Spares before after where
  redis := by
    intro other
    rw [redis] at other
    cases other
  db := fun _ => db
  memory := fun _ => memory

theorem of_isDb
    (db : command.isDb = true)
    (redis : after.redis = before.redis)
    (memory : after.memory = before.memory) : command.Spares before after where
  redis := fun _ => redis
  db := by
    intro other
    rw [db] at other
    cases other
  memory := fun _ => memory

theorem of_isLocal
    (memory : command.isLocal = true)
    (redis : after.redis = before.redis)
    (db : after.db = before.db) : command.Spares before after where
  redis := fun _ => redis
  db := fun _ => db
  memory := by
    intro other
    rw [memory] at other
    cases other

end Command.Spares

theorem spares_committed (state : State) (task : Tid) :
    Command.commit.Spares state (Db.committed state task) := by
  cases found : state.openRow task with
  | none =>
      rw [committed_of_no_openRow found]
      exact Command.Spares.refl _ state
  | some entry =>
      rw [committed_of_openRow found]
      exact Command.Spares.of_isDb rfl rfl rfl

theorem spares_acknowledged (state : State) (task : Tid) :
    Command.commit.Spares state (Db.acknowledged state task) := by
  cases found : state.openRow task with
  | none =>
      rw [acknowledged_of_no_openRow found]
      exact Command.Spares.refl _ state
  | some entry =>
      rw [acknowledged_of_openRow found]
      exact Command.Spares.of_isDb rfl rfl rfl

variable {command : Command} {reply : Except PyException command.Reply}

/-- A command changes nothing of another kind; one case for each command. -/
theorem exec_spares
    (taken : exec world state task command choice = some (reply, after)) :
    command.Spares state after := by
  cases command with
  | xgroupCreate =>
      rcases exec_xgroupCreate taken with rfl | ⟨_, rfl⟩
      · exact Command.Spares.refl _ after
      · exact Command.Spares.of_isRedis rfl rfl rfl
  | xadd fields maxlen =>
      rcases exec_xadd taken with ⟨rfl, _⟩ | ⟨stream, _, rfl, _⟩
      · exact Command.Spares.refl _ after
      · exact Command.Spares.of_isRedis rfl rfl rfl
  | xreadgroup count =>
      rcases exec_xreadgroup taken with ⟨rfl, _⟩ | ⟨group, _, rfl, _⟩
      · exact Command.Spares.refl _ after
      · exact Command.Spares.of_isRedis rfl rfl rfl
  | xautoclaim minIdleTime startId count =>
      rcases exec_xautoclaim taken with ⟨rfl, _⟩ | ⟨group, _, rfl, _⟩
      · exact Command.Spares.refl _ after
      · exact Command.Spares.of_isRedis rfl rfl rfl
  | xpendingRange msgId =>
      rw [(exec_xpendingRange taken).1]
      exact Command.Spares.refl _ state
  | xack msgId =>
      rcases settle_state taken with rfl | rfl
      · exact Command.Spares.refl _ after
      · exact Command.Spares.of_isRedis rfl rfl rfl
  | xaddDlq origin fields =>
      rcases settle_state taken with rfl | rfl
      · exact Command.Spares.refl _ after
      · exact Command.Spares.of_isRedis rfl rfl rfl
  | httpGet currency =>
      rw [← snd_of_some taken]
      cases answered : choice.http.rate? with
      | none =>
          simp only [httpGet, answered]
          exact Command.Spares.refl _ state
      | some rate =>
          simp only [httpGet, answered]
          exact ⟨fun _ => rfl, fun _ => rfl, fun _ => rfl⟩
  | execute row =>
      rcases exec_execute taken with
        ⟨_, _, _, _, _, rfl⟩ | ⟨_, _, _, _, rfl⟩ | ⟨_, rfl⟩
      · exact Command.Spares.of_isDb rfl rfl rfl
      · exact Command.Spares.of_isDb rfl rfl rfl
      · exact Command.Spares.of_isDb rfl rfl rfl
  | commit =>
      rcases exec_commit taken with ⟨_, rfl⟩ | ⟨_, rfl | rfl⟩
      · exact spares_acknowledged state task
      · exact Command.Spares.of_isDb rfl rfl rfl
      · exact spares_committed state task
  | select =>
      rw [(settle_state taken).elim id id]
      exact Command.Spares.refl _ state
  | probe =>
      rw [(settle_state taken).elim id id]
      exact Command.Spares.refl _ state
  | monotonic =>
      simp only [exec, monotonic] at taken
      split at taken
      · cases taken
      · cases taken
        exact Command.Spares.of_isLocal rfl rfl rfl
  | observe note =>
      cases taken
      unfold observe
      split
      · exact Command.Spares.of_isDb rfl rfl rfl
      · exact Command.Spares.of_isDb rfl rfl rfl
  | cacheSet currency rate expiresAt =>
      cases taken
      exact Command.Spares.of_isLocal rfl rfl rfl
  | inc counter =>
      cases taken
      exact Command.Spares.of_isLocal rfl rfl rfl
  | cacheGet currency =>
      cases taken
      exact Command.Spares.refl _ state
  | utcNow =>
      cases taken
      exact Command.Spares.refl _ state
  | random =>
      cases taken
      exact Command.Spares.refl _ state
  | sleep delay =>
      cases taken
      exact Command.Spares.refl _ state

theorem redis_of_not_isRedis (other : command.isRedis = false)
    (taken : exec world state task command choice = some (reply, after)) :
    after.redis = state.redis :=
  (exec_spares taken).redis other

theorem db_of_not_isDb (other : command.isDb = false)
    (taken : exec world state task command choice = some (reply, after)) :
    after.db = state.db :=
  (exec_spares taken).db other

theorem memory_of_not_isLocal (other : command.isLocal = false)
    (taken : exec world state task command choice = some (reply, after)) :
    after.memory = state.memory :=
  (exec_spares taken).memory other

/-- Only an XADD to the dead-letter stream adds to it. -/
theorem deadLetters_of_not_xaddDlq
    (other : ¬ ∃ origin fields, command = .xaddDlq origin fields)
    (taken : exec world state task command choice = some (reply, after)) :
    after.redis.deadLetters = state.redis.deadLetters := by
  by_cases redis : command.isRedis = false
  · rw [redis_of_not_isRedis redis taken]
  · cases command with
    | xgroupCreate =>
        rcases exec_xgroupCreate taken with same | ⟨_, created⟩
        · rw [same]
        · rw [created]
    | xadd fields maxlen =>
        rcases exec_xadd taken with ⟨same, _⟩ | ⟨stream, _, reached, _⟩
        · rw [same]
        · rw [reached]
    | xreadgroup count =>
        rcases exec_xreadgroup taken with ⟨same, _⟩ | ⟨group, _, reached, _⟩
        · rw [same]
        · rw [reached, State.handOut, State.deliver]
    | xautoclaim minIdleTime startId count =>
        rcases exec_xautoclaim taken with ⟨same, _⟩ | ⟨group, _, reached, _⟩
        · rw [same]
        · rw [reached, State.handOut, State.deliver]
    | xpendingRange msgId => rw [(exec_xpendingRange taken).1]
    | xack msgId =>
        rcases settle_state taken with same | reached
        · rw [same]
        · rw [reached, Redis.xack]
    | xaddDlq origin fields => exact absurd ⟨origin, fields, rfl⟩ other
    | _ => exact absurd rfl redis

/-- The commands that hand messages out. -/
def Command.delivers : Command → Bool
  | xreadgroup _ => true
  | xautoclaim _ _ _ => true
  | _ => false

/-- Only three kinds of steps write to the history: deliveries, answers of
the rate service, and notes. -/
theorem history_cases (other : command.delivers = false)
    (taken : exec world state task command choice = some (reply, after)) :
    after.history = state.history ∨
      (∃ currency rate, command = .httpGet currency ∧
        choice.http.rate? = some rate ∧
          after.history = .rateAnswered task currency rate :: state.history) ∨
      ∃ note, command = .observe note ∧
        after.history = .noted task note :: state.history := by
  cases command with
  | xgroupCreate =>
      rcases exec_xgroupCreate taken with same | ⟨_, created⟩
      · exact Or.inl (by rw [same])
      · exact Or.inl (by rw [created])
  | xadd fields maxlen =>
      rcases exec_xadd taken with ⟨same, _⟩ | ⟨stream, _, reached, _⟩
      · exact Or.inl (by rw [same])
      · exact Or.inl (by rw [reached])
  | xpendingRange msgId =>
      exact Or.inl (by rw [(exec_xpendingRange taken).1])
  | xack msgId =>
      rcases settle_state taken with same | reached
      · exact Or.inl (by rw [same])
      · exact Or.inl (by rw [reached, Redis.xack])
  | xaddDlq origin fields =>
      rcases settle_state taken with same | reached
      · exact Or.inl (by rw [same])
      · exact Or.inl (by rw [reached, Redis.xaddDlq])
  | httpGet currency =>
      rw [← snd_of_some taken]
      cases answered : choice.http.rate? with
      | none => exact Or.inl (by simp only [httpGet, answered])
      | some rate =>
          refine Or.inr (Or.inl ⟨currency, rate, rfl, rfl, ?_⟩)
          simp only [httpGet, answered, State.record]
  | execute row =>
      rcases exec_execute taken with
        ⟨_, _, _, _, _, reached⟩ | ⟨_, _, _, _, reached⟩ | ⟨_, reached⟩
      · exact Or.inl (by rw [reached])
      · exact Or.inl (by rw [reached, State.rollback])
      · exact Or.inl (by rw [reached, State.rollback])
  | commit =>
      rcases exec_commit taken with ⟨_, reached⟩ | ⟨_, reached | reached⟩
      · exact Or.inl (by rw [reached, history_acknowledged])
      · exact Or.inl (by rw [reached, State.rollback])
      · exact Or.inl (by rw [reached, history_committed])
  | select => exact Or.inl (by rw [(settle_state taken).elim id id])
  | probe => exact Or.inl (by rw [(settle_state taken).elim id id])
  | monotonic =>
      simp only [exec, monotonic] at taken
      split at taken
      · cases taken
      · cases taken
        exact Or.inl rfl
  | observe note =>
      cases taken
      exact Or.inr (Or.inr ⟨note, rfl, history_observe state task note⟩)
  | cacheGet currency =>
      cases taken
      exact Or.inl rfl
  | cacheSet currency rate expiresAt =>
      cases taken
      exact Or.inl rfl
  | utcNow =>
      cases taken
      exact Or.inl rfl
  | random =>
      cases taken
      exact Or.inl rfl
  | sleep delay =>
      cases taken
      exact Or.inl rfl
  | inc counter =>
      cases taken
      exact Or.inl rfl
  | _ => cases other

theorem history_of_delivers (delivering : command.delivers = true)
    (taken : exec world state task command choice = some (reply, after)) :
    ∃ ids : List MsgId,
      after.history =
        (ids.map (Happening.delivered task)).reverse ++ state.history := by
  cases command with
  | xreadgroup count =>
      rcases exec_xreadgroup taken with ⟨same, _⟩ | ⟨group, _, reached, _⟩
      · exact ⟨[], by rw [same, List.map_nil, List.reverse_nil, List.nil_append]⟩
      · exact ⟨_, by rw [reached, State.handOut, State.deliver]⟩
  | xautoclaim minIdleTime startId count =>
      rcases exec_xautoclaim taken with ⟨same, _⟩ | ⟨group, _, reached, _⟩
      · exact ⟨[], by rw [same, List.map_nil, List.reverse_nil, List.nil_append]⟩
      · exact ⟨_, by rw [reached, State.handOut, State.deliver]⟩
  | _ => cases delivering

/-- What a command writes to the history. -/
inductive Recorded (task : Tid) (choice : Choice) :
    Command → Happening → Prop
  | delivered {command : Command} (delivers : command.delivers = true)
      (id : MsgId) : Recorded task choice command (.delivered task id)
  | rateAnswered {rate : Decimal} (currency : String)
      (answered : choice.http.rate? = some rate) :
      Recorded task choice (.httpGet currency)
        (.rateAnswered task currency rate)
  | noted (note : Note) :
      Recorded task choice (.observe note) (.noted task note)

theorem exec_recorded
    (taken : exec world state task command choice = some (reply, after)) :
    ∃ newer, after.history = newer ++ state.history ∧
      ∀ happening ∈ newer, Recorded task choice command happening := by
  by_cases delivering : command.delivers = true
  · rcases history_of_delivers delivering taken with ⟨ids, equality⟩
    refine ⟨_, equality, ?_⟩
    intro happening member
    rcases List.mem_map.mp (List.mem_reverse.mp member) with ⟨id, _, rfl⟩
    exact Recorded.delivered delivering id
  · rcases history_cases (by simpa using delivering) taken with
      same | ⟨currency, rate, rfl, answered, equality⟩ | ⟨note, rfl, equality⟩
    · exact ⟨[], same, by simp⟩
    · refine ⟨[_], equality, ?_⟩
      intro happening member
      rw [List.mem_singleton.mp member]
      exact Recorded.rateAnswered currency answered
    · refine ⟨[_], equality, ?_⟩
      intro happening member
      rw [List.mem_singleton.mp member]
      exact Recorded.noted note

theorem exec_records
    (taken : exec world state task command choice = some (reply, after)) :
    Records task state after := by
  rcases exec_recorded taken with ⟨newer, equality, recorded⟩
  refine ⟨newer, equality, ?_⟩
  intro happening member
  cases recorded happening member with
  | delivered _ id => rfl
  | rateAnswered currency _ => rfl
  | noted note => rfl

/-- A task writes to no memory but that of its process. -/
theorem memory_exec_of_ne {process : Process}
    (elsewhere : process ≠ task.process)
    (taken : exec world state task command choice = some (reply, after)) :
    after.memory process = state.memory process := by
  cases command with
  | inc counter =>
      cases taken
      exact Function.update_of_ne elsewhere _ _
  | cacheSet currency rate expiresAt =>
      cases taken
      exact Function.update_of_ne elsewhere _ _
  | monotonic =>
      simp only [exec, monotonic] at taken
      split at taken
      · cases taken
      · cases taken
        exact Function.update_of_ne elsewhere _ _
  | _ => rw [memory_of_not_isLocal rfl taken]

private theorem settle_error_foreign {α : Type} {before : State}
    {effect : Effect α} {fate : Fate} {error : PyException} {reached : State}
    (taken : some (settle fate before effect) = some (.error error, reached))
    (foreign : ∀ error, effect.1 = .error error → error.cls.isOwn = false) :
    error.cls.isOwn = false := by
  rcases settle_cases taken with ⟨same, _⟩ | ⟨raised, failed, _⟩
  · exact foreign error same.symm
  · cases failed
    exact raised.foreign

theorem cls_refusedCount (count : Int) :
    (refusedCount count).cls = .redisError ∨
      (refusedCount count).cls = .responseError := by
  unfold refusedCount
  split
  · exact Or.inl rfl
  · exact Or.inr rfl

theorem isOwn_refusedCount (count : Int) :
    (refusedCount count).cls.isOwn = false := by
  rcases cls_refusedCount count with same | same
  · rw [same]
    rfl
  · rw [same]
    rfl

/-- No command raises one of the program's own exceptions. -/
theorem error_foreign {error : PyException}
    (taken :
      exec world state task command choice = some (.error error, after)) :
    error.cls.isOwn = false := by
  cases command with
  | xgroupCreate =>
      refine settle_error_foreign taken ?_
      intro error failed
      unfold Redis.xgroupCreate at failed
      split at failed
      all_goals cases failed
      rfl
  | xadd fields maxlen =>
      obtain ⟨effect, added, equality⟩ := Option.map_eq_some_iff.mp taken
      refine settle_error_foreign (congrArg some equality) ?_
      intro error failed
      simp only [Redis.xadd] at added
      repeat' split at added
      all_goals cases added
      all_goals cases failed
      rfl
  | xreadgroup count =>
      refine settle_error_foreign taken ?_
      intro error failed
      unfold Redis.xreadgroup at failed
      split at failed
      · cases failed
        rfl
      · split at failed
        · cases failed
          rfl
        · cases eq_of_elim_eq_error failed
          rfl
  | xautoclaim minIdleTime startId count =>
      refine settle_error_foreign taken ?_
      intro error failed
      unfold Redis.xautoclaim at failed
      split at failed
      · cases failed
        rfl
      · split at failed
        · cases failed
          exact isOwn_refusedCount count
        · split at failed
          · cases failed
            rfl
          · cases eq_of_elim_eq_error failed
            rfl
  | xpendingRange msgId =>
      refine settle_error_foreign taken ?_
      intro error failed
      unfold Redis.xpendingRange at failed
      split at failed
      all_goals cases failed
      rfl
  | xack msgId =>
      exact settle_error_foreign taken fun _ failed => by cases failed
  | xaddDlq origin fields =>
      exact settle_error_foreign taken fun _ failed => by cases failed
  | select => exact settle_error_foreign taken fun _ failed => by cases failed
  | probe => exact settle_error_foreign taken fun _ failed => by cases failed
  | httpGet currency =>
      simp only [exec, httpGet] at taken
      cases met : choice.http with
      | raised raised =>
          rw [met] at taken
          cases taken
          exact raised.foreign
      | answered response =>
          rw [met] at taken
          cases taken
  | execute row =>
      cases fated : choice.fate with
      | failedBefore raised =>
          simp only [exec, fated] at taken
          cases taken
          exact raised.foreign
      | failedAfter raised =>
          simp only [exec, fated] at taken
          cases taken
          exact raised.foreign
      | ok =>
          simp only [exec, fated, Db.execute, Db.insert] at taken
          repeat' split at taken
          all_goals cases taken
          rfl
  | commit =>
      cases fated : choice.fate with
      | failedBefore raised =>
          simp only [exec, fated, Db.commit] at taken
          cases taken
          exact raised.foreign
      | failedAfter raised =>
          simp only [exec, fated, Db.commit] at taken
          cases taken
          exact raised.foreign
      | ok =>
          simp only [exec, fated, Db.commit] at taken
          cases taken
  | monotonic =>
      simp only [exec, monotonic] at taken
      split at taken
      · cases taken
      · cases taken
  | _ => cases taken

end Exec

end TxnEvents
