import TxnEvents.Delivery.Batches
import TxnEvents.Streams.Sweeps

/-!
# Sweeping with `claim_stale`

Every call starts its `XAUTOCLAIM` at the beginning of the pending list and
drops the cursor of the reply.  Calls less than the idle time apart therefore
hand out the first entries again and again, and those behind them never.
-/

namespace TxnEvents

open Effects Python Streams App

/-! ## One call -/

/-- Every pending entry is in the stream, and no call acknowledges one because
it does not parse. -/
structure Sweepable
    (world : World)
    (state : State)
    (group : Group) : Prop where
  found : state.redis.group = some group
  live : Group.AllLive state.redis.stream group
  parses : ∀ entry ∈ group.pending, ∃ fields event,
    state.entryFields entry.id = some fields ∧
      parseFields world.unicode world.json fields = .ok event

section Call

variable {world : World} {task : Tid} {before met left after : State}
  {group : Group} {minIdle : Nat}

theorem exists_decoded
    {state : State}
    {ids : List MsgId}
    (parses : ∀ id ∈ ids, ∃ fields event,
      state.entryFields id = some fields ∧
        parseFields world.unicode world.json fields = .ok event) :
    ∃ entries, state.decodeEntries ids = some entries ∧
      ∀ entry ∈ entries, ∃ event,
        parseFields world.unicode world.json entry.2 = .ok event := by
  induction ids with
  | nil => exact ⟨[], rfl, by simp⟩
  | cons id rest inductionHypothesis =>
      rw [List.forall_mem_cons] at parses
      rcases parses with ⟨⟨fields, event, found, parsed⟩, others⟩
      rcases inductionHypothesis others with ⟨entries, decoded, each⟩
      refine ⟨(id, fields) :: entries, ?_, ?_⟩
      · rw [State.decodeEntries, found, decoded]
      · rw [List.forall_mem_cons]
        exact ⟨⟨event, parsed⟩, each⟩

/-- A batch that parses asks for nothing. -/
theorem parseEntries_eq_ret
    (deliveryCounts : MsgId → Nat)
    {entries : List (MsgId × Dict)}
    (parses : ∀ entry ∈ entries, ∃ event,
      parseFields world.unicode world.json entry.2 = .ok event) :
    ∃ messages, parseEntries world deliveryCounts entries = .ret messages ∧
      messages.map StreamMessage.msgId = entries.map Prod.fst := by
  induction entries with
  | nil => exact ⟨[], rfl, rfl⟩
  | cons entry rest inductionHypothesis =>
      rw [List.forall_mem_cons] at parses
      rcases parses with ⟨⟨event, parsed⟩, others⟩
      rcases inductionHypothesis others with ⟨messages, same, ids⟩
      rcases entry with ⟨msgId, fields⟩
      refine ⟨⟨msgId, event, deliveryCounts msgId, fields⟩ :: messages, ?_, ?_⟩
      · rw [parseEntries, parsed, same]
        rfl
      · rw [List.map_cons, List.map_cons, ids]

theorem runs_deliveryCount
    {id : MsgId}
    {outcome : Except PyException Nat}
    (found : before.redis.group = some group)
    (runs :
      RunsAlone world undisturbed task (deliveryCount id) before outcome
        after) :
    (∃ count, outcome = .ok count) ∧ after = before := by
  have asked : ∀ {reply : Except PyException (List Nat)} {middle : State},
      RunsAlone world undisturbed task (xpendingRange id) before reply
          middle →
        (∃ counts, reply = .ok counts) ∧ middle = before := by
    intro reply middle asking
    rcases asking.perform with ⟨met, left, rfl, ⟨choice, fine, taken⟩, rfl⟩
    have executed : exec world before task (.xpendingRange id) choice =
        some (reply, left) := taken
    rw [exec, fine rfl] at executed
    rcases settle_of_ok executed with ⟨same, reached⟩
    rw [Redis.xpendingRange, found] at same reached
    exact ⟨⟨_, same⟩, reached⟩
  rcases Prog.Runs.bind Eq.refl runs with
    ⟨counts, middle, asking, returning⟩ | ⟨_, _, failed⟩
  · rcases returning.ret with ⟨same, rfl⟩
    exact ⟨⟨_, same⟩, (asked asking).2⟩
  · rcases (asked failed).1 with ⟨_, impossible⟩
    cases impossible

theorem runs_lookUpCounts
    {deliveryCounts : MsgId → Nat}
    {entries : List (MsgId × Dict)}
    {outcome : Except PyException (MsgId → Nat)}
    (found : before.redis.group = some group)
    (runs :
      RunsAlone world undisturbed task (lookUpCounts deliveryCounts entries)
        before outcome after) :
    (∃ counts, outcome = .ok counts) ∧ after = before := by
  induction entries generalizing deliveryCounts with
  | nil =>
      rcases runs.ret with ⟨same, rfl⟩
      exact ⟨⟨_, same⟩, rfl⟩
  | cons entry rest inductionHypothesis =>
      rcases Prog.Runs.bind Eq.refl runs with
        ⟨count, middle, asking, later⟩ | ⟨_, _, failed⟩
      · rw [(runs_deliveryCount found asking).2] at later
        exact inductionHypothesis later
      · rcases (runs_deliveryCount found failed).1 with ⟨_, impossible⟩
        cases impossible

/-- What one sweep leaves in Redis. -/
def RedisState.swept
    (redis : RedisState)
    (group : Group)
    (minIdle count : Nat) : RedisState :=
  { redis with
    group := some (group.claim redis.stream redis.now minIdle 0 count) }

/-- The ids that one sweep hands out. -/
def RedisState.sweptIds
    (redis : RedisState)
    (group : Group)
    (minIdle count : Nat) : List MsgId :=
  (group.claimScan redis.stream redis.now minIdle 0 count).claimed

theorem performs_xautoclaim
    {reply : Except PyException ClaimReply}
    (sweepable : Sweepable world before group)
    (batch : 1 ≤ world.settings.batchSize)
    (performed :
      (system world).performs undisturbed task before
        (.xautoclaim minIdle 0 world.settings.batchSize) reply left) :
    left.redis =
        before.redis.swept group minIdle world.settings.batchSize.toNat ∧
      ∃ answer, reply = .ok answer ∧
        answer.claimed.map Prod.fst =
            before.redis.sweptIds group minIdle
              world.settings.batchSize.toNat ∧
          ∀ entry ∈ answer.claimed, ∃ event,
            parseFields world.unicode world.json entry.2 = .ok event := by
  rcases performed with ⟨choice, fine, taken⟩
  have executed : exec world before task
      (.xautoclaim minIdle 0 world.settings.batchSize) choice =
        some (reply, left) := taken
  rw [exec, fine rfl] at executed
  rcases settle_of_ok executed with ⟨same, reached⟩
  have nonnegative : ¬ (minIdle : Int) < 0 := by omega
  have positive : ¬ world.settings.batchSize < 1 := by omega
  rw [Redis.xautoclaim, if_neg nonnegative, if_neg positive,
    sweepable.found] at same reached
  rw [Int.toNat_natCast] at same reached
  have readable : ∀ id ∈ before.redis.sweptIds group minIdle
      world.settings.batchSize.toNat, ∃ fields event,
        before.entryFields id = some fields ∧
          parseFields world.unicode world.json fields = .ok event := by
    intro id claimed
    rcases Group.pending_of_claimed claimed with ⟨entry, member, rfl⟩
    exact sweepable.parses entry member
  rcases exists_decoded readable with ⟨entries, decoded, parses⟩
  refine ⟨by rw [reached]; rfl, ?_⟩
  change reply = (before.decodeEntries (before.redis.sweptIds group minIdle
    world.settings.batchSize.toNat)).elim _ _ at same
  rw [decoded] at same
  exact ⟨_, same, decodeEntries_ids decoded, parses⟩

/-- A call returns what its `XAUTOCLAIM` hands out. -/
theorem runs_claimStale
    {outcome : Except PyException (List StreamMessage)}
    (sweepable : Sweepable world before group)
    (batch : 1 ≤ world.settings.batchSize)
    (runs :
      RunsAlone world undisturbed task (claimStale world minIdle) before
        outcome after) :
    after.redis =
        before.redis.swept group minIdle world.settings.batchSize.toNat ∧
      ∃ messages, outcome = .ok messages ∧
        messages.map StreamMessage.msgId =
          before.redis.sweptIds group minIdle
            world.settings.batchSize.toNat := by
  rcases Prog.Runs.bind Eq.refl runs with
    ⟨answer, middle, asking, parsing⟩ | ⟨error, _, failed⟩
  · rcases asking.perform with ⟨met, left, rfl, performed, rfl⟩
    rcases performs_xautoclaim sweepable batch performed with
      ⟨reached, _, same, ids, parses⟩
    cases same
    split at parsing
    case isTrue empty =>
      rcases parsing.ret with ⟨same, rfl⟩
      rw [List.isEmpty_iff.mp empty] at ids
      exact ⟨reached, [], same, ids⟩
    case isFalse =>
      have grouped : left.redis.group = some (group.claim before.redis.stream
          before.redis.now minIdle 0 world.settings.batchSize.toNat) := by
        rw [reached]
        rfl
      rcases Prog.Runs.bind Eq.refl parsing with
        ⟨counts, counted, counting, parsed⟩ | ⟨_, _, failed⟩
      · rcases parseEntries_eq_ret counts parses with
          ⟨messages, parsedTo, parsedIds⟩
        rw [parsedTo, (runs_lookUpCounts grouped counting).2] at parsed
        rcases parsed.ret with ⟨same, rfl⟩
        exact ⟨reached, messages, same, parsedIds.trans ids⟩
      · rcases (runs_lookUpCounts grouped failed).1 with ⟨_, impossible⟩
        cases impossible
  · rcases failed.perform with ⟨met, left, rfl, performed, rfl⟩
    rcases performs_xautoclaim sweepable batch performed with
      ⟨_, _, impossible, _⟩
    cases impossible

/-- The commands of a call. -/
def Command.Claims : Command → Prop
  | xautoclaim _ _ _ => True
  | xpendingRange _ => True
  | command => command.Buries

theorem uses_claimStale
    (world : World)
    (minIdleMs : Int) :
    (claimStale world minIdleMs).Uses Command.Claims := by
  apply Prog.Uses.bind (Prog.Uses.perform trivial)
  intro reply
  split
  case isTrue => exact trivial
  case isFalse =>
    apply Prog.Uses.bind (uses_lookUpCounts (fun _ => trivial) _ _)
    intro counts
    apply (uses_parseEntries world counts reply.claimed).mono
    intro command buries
    cases command <;> first | exact trivial | exact buries.elim

/-- Every call comes to an end. -/
theorem exists_claimStale
    (world : World)
    (task : Tid)
    (minIdleMs : Int)
    (before : State) :
    ∃ outcome after,
      RunsAlone world undisturbed task (claimStale world minIdleMs) before
        outcome after := by
  have performable : ∀ (state : State) (command : Command),
      command.Claims → ∃ reply left,
        (system world).performs undisturbed task state command reply left := by
    intro state command claims
    cases command with
    | xautoclaim minIdleTime startId count =>
        exact ⟨_, _, {}, fun _ => rfl, rfl⟩
    | xpendingRange id => exact ⟨_, _, {}, fun _ => rfl, rfl⟩
    | observe note => exact ⟨_, _, {}, fun _ => rfl, rfl⟩
    | xaddDlq id fields => exact ⟨_, _, {}, fun _ => rfl, rfl⟩
    | xack id => exact ⟨_, _, {}, fun _ => rfl, rfl⟩
    | _ => exact claims.elim
  exact Prog.exists_runs Eq.refl performable (uses_claimStale world minIdleMs)
    before

end Call

/-! ## One call after the other -/

/-- Time passes. -/
def State.wait (state : State) (milliseconds : Nat) : State :=
  { state with redis.now := state.redis.now + milliseconds }

/-- The task calls `claim_stale` again and again, with nothing else in between
than the time that passes after each call. -/
inductive Sweeps (world : World) (task : Tid) (minIdle : Nat) :
    State → List Nat → List (List StreamMessage) → State → Prop
  | done (state : State) : Sweeps world task minIdle state [] [] state
  | call {before middle after : State} {gap : Nat} {gaps : List Nat}
      {messages : List StreamMessage} {calls : List (List StreamMessage)} :
      RunsAlone world undisturbed task (claimStale world minIdle) before
        (.ok messages) middle →
      Sweeps world task minIdle (middle.wait gap) gaps calls after →
      Sweeps world task minIdle before (gap :: gaps) (messages :: calls) after

section Sweeps

variable {world : World} {task : Tid} {before middle after : State}
  {group : Group} {minIdle : Nat} {gaps : List Nat}
  {calls : List (List StreamMessage)}

theorem stream_next
    {count : Nat}
    (reached : middle.redis = before.redis.swept group minIdle count)
    (gap : Nat) :
    (middle.wait gap).redis.stream = before.redis.stream := by
  change middle.redis.stream = before.redis.stream
  rw [reached]
  rfl

theorem now_next
    {count : Nat}
    (reached : middle.redis = before.redis.swept group minIdle count)
    (gap : Nat) :
    (middle.wait gap).redis.now = before.redis.now + gap := by
  change middle.redis.now + gap = before.redis.now + gap
  rw [reached]
  rfl

theorem Sweepable.next
    (sweepable : Sweepable world before group)
    (reached : middle.redis =
      before.redis.swept group minIdle world.settings.batchSize.toNat)
    (gap : Nat) :
    Sweepable world (middle.wait gap)
      (group.claim before.redis.stream before.redis.now minIdle 0
        world.settings.batchSize.toNat) := by
  have stream := stream_next reached gap
  constructor
  · change middle.redis.group = _
    rw [reached]
    rfl
  · rw [stream]
    exact sweepable.live.claim
  · intro entry member
    have listed := List.mem_map_of_mem (f := PendingEntry.id) member
    rw [Group.ids_claim sweepable.live] at listed
    rcases List.mem_map.mp listed with ⟨old, oldMember, same⟩
    rcases sweepable.parses old oldMember with ⟨fields, event, found, parsed⟩
    refine ⟨fields, event, ?_, parsed⟩
    rw [State.entryFields, stream, ← same]
    exact found

/-- The calls return what the sweeps of the group hand out. -/
theorem ids_of_sweeps
    (sweeps : Sweeps world task minIdle before gaps calls after)
    (batch : 1 ≤ world.settings.batchSize)
    (sweepable : Sweepable world before group) :
    calls.map (List.map StreamMessage.msgId) =
      Group.sweeps before.redis.stream minIdle
        world.settings.batchSize.toNat group before.redis.now gaps := by
  induction sweeps generalizing group with
  | done state => rfl
  | @call before middle after gap gaps messages calls here later
      inductionHypothesis =>
      rcases runs_claimStale sweepable batch here with
        ⟨reached, _, same, ids⟩
      cases same
      have rest := inductionHypothesis (sweepable.next reached gap)
      rw [stream_next reached gap, now_next reached gap] at rest
      rw [List.map_cons, ids, rest]
      rfl

theorem exists_sweeps
    (task : Tid)
    (gaps : List Nat)
    (batch : 1 ≤ world.settings.batchSize)
    (sweepable : Sweepable world before group) :
    ∃ calls after, Sweeps world task minIdle before gaps calls after := by
  induction gaps generalizing before group with
  | nil => exact ⟨[], before, Sweeps.done before⟩
  | cons gap gaps inductionHypothesis =>
      rcases exists_claimStale world task minIdle before with
        ⟨outcome, middle, runs⟩
      rcases runs_claimStale sweepable batch runs with
        ⟨reached, messages, rfl, _⟩
      rcases inductionHypothesis (sweepable.next reached gap) with
        ⟨calls, after, later⟩
      exact ⟨messages :: calls, after, Sweeps.call runs later⟩

/-- Enough calls, less than the idle time apart, return every message that is
idle now. -/
def CoversPending
    (world : World)
    (task : Tid)
    (minIdle : Nat)
    (before : State)
    (group : Group) : Prop :=
  ∃ enough, ∀ gaps calls after,
    Sweeps world task minIdle before gaps calls after →
      enough ≤ gaps.length → (∀ gap ∈ gaps, gap < minIdle) →
        ∀ entry ∈ group.pending,
          entry.isIdle minIdle before.redis.now = true →
            ∃ messages ∈ calls, ∃ msg ∈ messages, msg.msgId = entry.id

theorem coversPending_iff
    (task : Tid)
    (batch : 1 ≤ world.settings.batchSize)
    (sweepable : Sweepable world before group) :
    CoversPending world task minIdle before group ↔
      Group.Covers before.redis.stream minIdle
        world.settings.batchSize.toNat group before.redis.now := by
  have handsOut : ∀ (calls : List (List StreamMessage)) (id : MsgId),
      (∃ messages ∈ calls, ∃ msg ∈ messages, msg.msgId = id) ↔
        ∃ claimed ∈ calls.map (List.map StreamMessage.msgId),
          id ∈ claimed := by
    intro calls id
    constructor
    · rintro ⟨messages, called, msg, member, rfl⟩
      exact ⟨_, List.mem_map_of_mem called, List.mem_map_of_mem member⟩
    · rintro ⟨claimed, inside, here⟩
      rcases List.mem_map.mp inside with ⟨messages, called, rfl⟩
      rcases List.mem_map.mp here with ⟨msg, member, same⟩
      exact ⟨messages, called, msg, member, same⟩
  constructor
  · rintro ⟨enough, covered⟩
    refine ⟨enough, ?_⟩
    intro gaps long short entry member isIdle
    rcases exists_sweeps task gaps batch sweepable with ⟨calls, after, sweeps⟩
    rw [← ids_of_sweeps sweeps batch sweepable, ← handsOut]
    exact covered gaps calls after sweeps long short entry member isIdle
  · rintro ⟨enough, covered⟩
    refine ⟨enough, ?_⟩
    intro gaps calls after sweeps long short entry member isIdle
    rw [handsOut, ids_of_sweeps sweeps batch sweepable]
    exact covered gaps long short entry member isIdle

/-- The calls cover the pending list exactly when every message that is idle
now is within reach. -/
theorem sweeps_cover_iff
    (task : Tid)
    (batch : 1 ≤ world.settings.batchSize)
    (sweepable : Sweepable world before group) :
    CoversPending world task minIdle before group ↔
      minIdle = 0 ∨ ∀ earlier entry later,
        group.pending = earlier ++ entry :: later →
          entry.isIdle minIdle before.redis.now = true →
            Group.WithinReach minIdle world.settings.batchSize.toNat
              before.redis.now earlier := by
  rw [coversPending_iff task batch sweepable]
  exact Group.covers_iff sweepable.live

end Sweeps

/-! ## Two pending lists -/

/-- Whether this is the pending list, and all of it is in the stream and
parses. -/
def showsSweepable
    (world : World)
    (pending : List PendingEntry)
    (config : AppConfig) : Bool :=
  (config.shared.redis.group.any fun group =>
      decide (group.pending = pending)) &&
    pending.all fun entry =>
      decide (config.shared.redis.stream.Live entry.id) &&
        (config.shared.entryFields entry.id).any fun fields =>
          !failsToParse world fields

theorem sweepable_of_shows
    {world : World}
    {pending : List PendingEntry}
    {config : AppConfig}
    (shown : showsSweepable world pending config = true) :
    ∃ group, Sweepable world config.shared group ∧
      group.pending = pending := by
  rw [showsSweepable, Bool.and_eq_true] at shown
  rcases (Option.any_eq_true _ _).mp shown.1 with ⟨group, found, same⟩
  have listed : group.pending = pending := of_decide_eq_true same
  have each : ∀ entry ∈ group.pending,
      config.shared.redis.stream.Live entry.id ∧ ∃ fields event,
        config.shared.entryFields entry.id = some fields ∧
          parseFields world.unicode world.json fields = .ok event := by
    intro entry member
    rw [listed] at member
    have here := List.all_eq_true.mp shown.2 entry member
    rw [Bool.and_eq_true, decide_eq_true_eq] at here
    rcases (Option.any_eq_true _ _).mp here.2 with ⟨fields, stored, parses⟩
    refine ⟨here.1, fields, ?_⟩
    rw [failsToParse] at parses
    cases parsed : parseFields world.unicode world.json fields with
    | ok event => exact ⟨event, stored, rfl⟩
    | error exc => simp [parsed] at parses
  exact ⟨group, {
    found := found
    live := fun entry member => (each entry member).1
    parses := fun entry member => (each entry member).2 }, listed⟩

/-- A worker reads one entry and is gone. -/
def readAndDie (name : Nat) : List AppAction :=
  launch name ++ [.run (.consume name) {}, .env (.kill name)]

def oneByOne : Settings :=
  { Settings.defaults with batchSize := 1 }

/-- Two messages that two workers left behind. -/
def twoLeftBehind : List AppAction :=
  post 0 coffee {} ++ post 1 coffee {} ++ readAndDie 0 ++ readAndDie 1 ++
    [.env (.tick 15000)]

/-- With a batch size of 1, both of two pending messages are returned. -/
theorem sweeps_cover_iff_coffee :
    ∃ config group, Reaches (coffeeWorld oneByOne) Permit.any config ∧
      group.pending.length = 2 ∧
        CoversPending (coffeeWorld oneByOne) (.reclaim 2) 15000 config.shared
          group := by
  have taken : ((system (coffeeWorld oneByOne)).run Guard.any start
      twoLeftBehind).any (fun config =>
        showsSweepable (coffeeWorld oneByOne) [⟨0, 1, 0⟩, ⟨1, 1, 0⟩] config &&
          decide (config.shared.redis.now = 15000)) = true := by
    decide +kernel
  rcases reaches_of_run respects_any taken with ⟨config, reaches, shown⟩
  rw [Bool.and_eq_true, decide_eq_true_eq] at shown
  rcases sweepable_of_shows shown.1 with ⟨group, sweepable, listed⟩
  refine ⟨config, group, reaches, by rw [listed]; rfl, ?_⟩
  apply (sweeps_cover_iff (.reclaim 2) (by decide) sweepable).mpr
  right
  intro earlier entry later split _
  rw [listed] at split
  rw [shown.2]
  cases earlier with
  | nil => exact ⟨by decide, Or.inr (Or.inl (by decide))⟩
  | cons first rest =>
      obtain ⟨same, tail⟩ := List.cons.inj split
      cases rest with
      | nil =>
          rw [← same]
          exact ⟨by decide, Or.inr (Or.inr (by decide))⟩
      | cons second others =>
          have lengths := congrArg List.length tail
          simp at lengths

/-- Three messages that three workers left behind. -/
def leftBehind : List AppAction :=
  post 0 coffee {} ++ post 1 coffee {} ++ post 2 coffee {} ++
    readAndDie 0 ++ readAndDie 1 ++ readAndDie 2 ++ [.env (.tick 15000)]

/-- With a batch size of 1, calls 14.999 seconds apart return the first two
messages in turn, and never the third one. -/
theorem third_message_is_never_swept :
    ∃ config group, Reaches (coffeeWorld oneByOne) Permit.any config ∧
      Sweepable (coffeeWorld oneByOne) config.shared group ∧
        ¬ CoversPending (coffeeWorld oneByOne) (.reclaim 3) 15000
          config.shared group := by
  have taken : ((system (coffeeWorld oneByOne)).run Guard.any start
      leftBehind).any (fun config =>
        showsSweepable (coffeeWorld oneByOne)
            [⟨0, 1, 0⟩, ⟨1, 1, 0⟩, ⟨2, 1, 0⟩] config &&
          decide (config.shared.redis.now = 15000)) = true := by
    decide +kernel
  rcases reaches_of_run respects_any taken with ⟨config, reaches, shown⟩
  rw [Bool.and_eq_true, decide_eq_true_eq] at shown
  rcases sweepable_of_shows shown.1 with ⟨group, sweepable, listed⟩
  refine ⟨config, group, reaches, sweepable, ?_⟩
  rw [coversPending_iff _ (by decide) sweepable,
    Group.covers_iff sweepable.live, shown.2]
  rintro (impossible | within)
  · cases impossible
  · have reached := within [⟨0, 1, 0⟩, ⟨1, 1, 0⟩] ⟨2, 1, 0⟩ [] listed
      (by decide)
    have few := reached.few
    revert few
    decide

end TxnEvents
